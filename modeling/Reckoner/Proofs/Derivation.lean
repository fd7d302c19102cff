import Reckoner.Proofs.Grammar
import Reckoner.Proofs.Quiet

/-! # Stages read the grammar

Each stage takes one level off a tree: the first replaces the factors of an expression by their values, the second its
terms, the third the expression itself. In turn a list that a stage turns into the tokens of a smaller tree is read from
a larger one.
-/

namespace Reckoner

open Token (alone release)
open Chain (links)

theorem Expression.tokens_mk {Leaf : Type} (leaf : Leaf → List Token) (head : Leaf)
    (products : List (ProductOp × Leaf)) (sums : List (SumOp × Term Leaf)) :
    Expression.tokens leaf ⟨⟨head, products⟩, sums⟩ =
      leaf head ++ (links .product leaf products ++ links .sum (Term.tokens leaf) sums) := by
  simp only [Expression.tokens, Term.tokens, Chain.tokens, List.append_assoc]

namespace Signs

theorem quiet_pluses (n : Nat) (rest : List Token) :
    quiet none (List.replicate n (.operator (.sum .add)) ++ rest) = quiet none rest := by
  induction n with
  | zero => rfl
  | succ n ih => simpa only [List.replicate_succ, List.cons_append, quiet] using ih

theorem quiet_factorials (n : Nat) (value : Float) (rest : List Token) :
    quiet (some value) (List.replicate n (.operator .factorial) ++ rest) =
      quiet (some (Factorial.value^[n] value)) rest := by
  induction n generalizing value with
  | zero => rfl
  | succ n ih =>
      simp only [List.replicate_succ, List.cons_append, quiet, Factorial.quiet_eq_value, ih]
      rfl

theorem quiet_factor (factor : Factor) (rest : List Token) :
    quiet none (factor.tokens ++ rest) = quiet (some factor.value) rest := by
  obtain ⟨pluses, negated, operand, factorials⟩ := factor
  simp only [Factor.tokens, Factor.value, List.append_assoc, quiet_pluses]
  cases negated with
  | false => simp [quiet, quiet_factorials]
  | true => simp [quiet, quiet_factorials]

theorem quiet_product (value : Float) (op : ProductOp) (factor : Factor) (rest : List Token) :
    quiet (some value) (.operator (.product op) :: (factor.tokens ++ rest)) =
      (quiet (some factor.value) rest).map (.operand value :: .operator (.product op) :: ·) := by
  rw [← quiet_factor]
  rfl

theorem quiet_sum (value : Float) (op : SumOp) (factor : Factor) (rest : List Token) :
    quiet (some value) (.operator (.sum op) :: (factor.tokens ++ rest)) =
      (quiet (some factor.value) rest).map (.operand value :: .operator (.sum op) :: ·) := by
  rw [← quiet_factor]
  rfl

/-- The products of a term come first, then the sums with their terms. -/
theorem quiet_links (value : Float) (products : List (ProductOp × Factor)) (sums : List (SumOp × Term Factor)) :
    quiet (some value) (links .product Factor.tokens products ++ links .sum (Term.tokens Factor.tokens) sums) =
      .ok (Expression.tokens alone ⟨⟨value, products.map fun link => (link.1, link.2.value)⟩,
        sums.map fun link => (link.1, link.2.map Factor.value)⟩) := by
  match products, sums with
  | [], [] => rfl
  | (op, factor) :: products, sums =>
      rw [Chain.links_cons, List.cons_append, List.append_assoc, quiet_product, quiet_links factor.value products sums]
      rfl
  | [], (op, ⟨head, products⟩) :: sums =>
      rw [Chain.links_nil, List.nil_append, Chain.links_cons, Term.tokens, Chain.tokens, List.append_assoc, quiet_sum,
        quiet_links head.value products sums]
      rfl
termination_by (sums.length, products.length)

theorem quiet_expression (expression : Expression Factor) :
    quiet none (expression.tokens Factor.tokens) = .ok ((expression.map Factor.value).tokens alone) := by
  obtain ⟨⟨head, products⟩, sums⟩ := expression
  rw [Expression.tokens_mk, quiet_factor, quiet_links]
  rfl

end Signs

namespace Products

theorem quiet_products (value : Float) (products : List (ProductOp × Float)) (rest : List Token) :
    quiet (some value) (links .product alone products ++ rest) =
      quiet (some (Term.value id ⟨value, products⟩)) rest := by
  induction products generalizing value with
  | nil => rfl
  | cons link products ih => exact ih (link.1.apply value link.2)

theorem quiet_sums (value : Float) (sums : List (SumOp × Term Float)) :
    quiet (some value) (links .sum (Term.tokens alone) sums) =
      .ok (.operand value :: links .sum alone (sums.map fun link => (link.1, link.2.value id))) := by
  induction sums generalizing value with
  | nil => rfl
  | cons link sums ih =>
      obtain ⟨op, head, products⟩ := link
      have term : quiet none (Term.tokens alone ⟨head, products⟩ ++ links .sum (Term.tokens alone) sums) =
          quiet (some (Term.value id ⟨head, products⟩)) (links .sum (Term.tokens alone) sums) := by
        rw [← quiet_products]
        simp [Term.tokens, Chain.tokens, alone, quiet]
      simp only [Chain.links_cons, quiet, term, ih]
      rfl

theorem quiet_expression (expression : Expression Float) :
    quiet none (expression.tokens alone) = .ok (Chain.tokens .sum alone (Chain.map (Term.value id) expression)) := by
  obtain ⟨⟨head, products⟩, sums⟩ := expression
  rw [Expression.tokens_mk]
  simp only [alone, List.singleton_append, quiet, quiet_products, quiet_sums, Token.map_release_none]
  rfl

end Products

namespace Sums

theorem fold_links (value : Float) (sums : List (SumOp × Float)) :
    fold 0 (some value) (links .sum alone sums) = .ok (Chain.value SumOp.apply id ⟨value, sums⟩) := by
  induction sums generalizing value with
  | nil => rfl
  | cons link sums ih => exact ih (link.1.apply value link.2)

theorem fold_chain (chain : Chain SumOp Float) :
    fold 0 none (chain.tokens .sum alone) = .ok (chain.value SumOp.apply id) :=
  fold_links chain.head chain.tail

end Sums

section Inversion

theorem first_and_rest {first value : Float} {rest output : List Token}
    (h : alone first ++ rest = .operand value :: output) : first = value ∧ rest = output := by
  simpa [alone] using h

variable {products : List (ProductOp × Float)} {sums : List (SumOp × Term Float)} {output : List Token}

theorem follow_nil (h : links .product alone products ++ links .sum (Term.tokens alone) sums = []) :
    products = [] ∧ sums = [] := by
  cases products with
  | cons => cases h
  | nil =>
      cases sums with
      | cons => cases h
      | nil => exact ⟨rfl, rfl⟩

/-- No operand stands right after another. -/
theorem follow_operand (value : Float) :
    links .product alone products ++ links .sum (Term.tokens alone) sums ≠ .operand value :: output := by
  intro h
  cases products with
  | cons => cases h
  | nil => cases sums <;> cases h

theorem follow_sum {op : SumOp}
    (h : links .product alone products ++ links .sum (Term.tokens alone) sums = .operator (.sum op) :: output) :
    ∃ term others, products = [] ∧ sums = (op, term) :: others ∧ Expression.tokens alone ⟨term, others⟩ = output := by
  cases products with
  | cons => cases h
  | nil =>
      cases sums with
      | nil => cases h
      | cons link others =>
          cases h
          exact ⟨link.2, others, rfl, rfl, rfl⟩

theorem follow_product {op : ProductOp}
    (h : links .product alone products ++ links .sum (Term.tokens alone) sums = .operator (.product op) :: output) :
    ∃ factor others, products = (op, factor) :: others ∧
      Expression.tokens alone ⟨⟨factor, others⟩, sums⟩ = output := by
  cases products with
  | nil => cases sums <;> cases h
  | cons link others =>
      cases h
      exact ⟨link.2, others, rfl, Expression.tokens_mk ..⟩

end Inversion

namespace Signs

/-- An expression that starts with an operand has no signs before it. -/
theorem plain_of_tokens {source : Expression Factor} {value : Float} {rest : List Token}
    (h : source.tokens Factor.tokens = .operand value :: rest) :
    ∃ factorials products sums, source = ⟨⟨.plain value factorials, products⟩, sums⟩ ∧
      rest = List.replicate factorials (.operator .factorial) ++
        (links .product Factor.tokens products ++ links .sum (Term.tokens Factor.tokens) sums) := by
  obtain ⟨⟨⟨pluses, negated, operand, factorials⟩, products⟩, sums⟩ := source
  rw [Expression.tokens_mk] at h
  cases pluses with
  | succ n => simp [Factor.tokens, List.replicate_succ] at h
  | zero =>
      cases negated with
      | true => simp [Factor.tokens] at h
      | false =>
          obtain ⟨rfl, rfl⟩ := by simpa [Factor.tokens] using h
          exact ⟨factorials, products, sums, rfl, rfl⟩

/-- Another first factor of the same value makes no difference to the values. -/
theorem map_first {factor other : Factor} (h : other.value = factor.value) (products : List (ProductOp × Factor))
    (sums : List (SumOp × Term Factor)) :
    Expression.map Factor.value ⟨⟨other, products⟩, sums⟩ = Expression.map Factor.value ⟨⟨factor, products⟩, sums⟩ := by
  simp only [Expression.map, Chain.map, h]

theorem expression_of_quiet {held : Option Float} {tokens : List Token} {expression : Expression Float}
    (h : quiet held tokens = .ok (expression.tokens alone)) :
    ∃ source : Expression Factor,
      source.tokens Factor.tokens = release held tokens ∧ source.map Factor.value = expression := by
  obtain ⟨⟨first, products⟩, sums⟩ := expression
  rw [Expression.tokens_mk] at h
  -- A held operand is the start of a plain factor, so the tree that is built covers it and the tokens to come.
  fun_induction quiet held tokens generalizing first products sums with
  | case1 held =>
      cases held with
      | none => cases h
      | some value =>
          obtain ⟨rfl, follows⟩ := first_and_rest (Except.ok.inj h).symm
          obtain ⟨rfl, rfl⟩ := follow_nil follows
          exact ⟨⟨⟨.plain first 0, []⟩, []⟩, rfl, rfl⟩
  | case2 held value rest ih =>
      cases held with
      | none => exact ih _ _ _ (by simpa using h)
      | some before =>
          obtain ⟨output, run, same⟩ := Except.map_eq_ok.mp h
          obtain ⟨result, more, rfl⟩ := head_of_held run
          exact (follow_operand result (first_and_rest same.symm).2).elim
  | case3 value rest ih =>
      obtain ⟨source, yields, maps⟩ := ih _ _ _ h
      obtain ⟨factorials, products', sums', rfl, rfl⟩ := plain_of_tokens yields
      refine ⟨⟨⟨.plain value (factorials + 1), products'⟩, sums'⟩, Expression.tokens_mk .., ?_⟩
      rw [← maps]
      apply map_first
      rw [Factorial.quiet_eq_value]
      rfl
  | case4 => cases h
  | case5 value op rest ih =>
      obtain ⟨output, run, same⟩ := Except.map_eq_ok.mp h
      obtain ⟨rfl, follows⟩ := first_and_rest same.symm
      obtain ⟨term, others, rfl, rfl, rfl⟩ := follow_sum follows
      obtain ⟨⟨term', sums'⟩, yields, maps⟩ := ih _ _ _ run
      refine ⟨⟨⟨.plain first 0, []⟩, (op, term') :: sums'⟩, ?_, ?_⟩
      · rw [Expression.tokens_mk, Chain.links_nil, Chain.links_cons]
        exact congrArg (.operand first :: .operator (.sum op) :: ·) yields
      · simp only [Expression.map, Chain.map, Chain.mk.injEq] at maps
        simp only [Expression.map, Chain.map, List.map_cons, maps]
        rfl
  | case6 rest ih =>
      obtain ⟨⟨⟨factor, products'⟩, sums'⟩, yields, maps⟩ := ih _ _ _ h
      refine ⟨⟨⟨{ factor with pluses := factor.pluses + 1 }, products'⟩, sums'⟩, ?_, ?_⟩
      · exact congrArg (.operator (.sum .add) :: ·) yields
      · rw [← maps]
        exact map_first rfl products' sums'
  | case7 value rest ih =>
      obtain ⟨source, yields, maps⟩ := ih _ _ _ h
      obtain ⟨factorials, products', sums', rfl, rfl⟩ := plain_of_tokens yields
      refine ⟨⟨⟨⟨0, true, value, factorials⟩, products'⟩, sums'⟩, Expression.tokens_mk .., ?_⟩
      rw [← maps]
      exact map_first rfl products' sums'
  | case8 => cases h
  | case9 held op rest ih =>
      obtain ⟨output, run, same⟩ := Except.map_eq_ok.mp h
      cases held with
      | none => cases same
      | some value =>
          obtain ⟨rfl, follows⟩ := first_and_rest same.symm
          obtain ⟨factor, others, rfl, rfl⟩ := follow_product follows
          obtain ⟨⟨⟨factor', products'⟩, sums'⟩, yields, maps⟩ := ih _ _ _ run
          refine ⟨⟨⟨.plain first 0, (op, factor') :: products'⟩, sums'⟩, ?_, ?_⟩
          · rw [Expression.tokens_mk, Chain.links_cons, List.cons_append, List.append_assoc]
            rw [Expression.tokens_mk] at yields
            exact congrArg (.operand first :: .operator (.product op) :: ·) yields
          · simp only [Expression.map, Chain.map, Chain.mk.injEq] at maps
            simp only [Expression.map, Chain.map, List.map_cons, maps]
            rfl

end Signs

namespace Products

theorem expression_of_quiet {held : Option Float} {tokens : List Token} {chain : Chain SumOp Float}
    (h : quiet held tokens = .ok (chain.tokens .sum alone)) :
    ∃ source : Expression Float,
      source.tokens alone = release held tokens ∧ Chain.map (Term.value id) source = chain := by
  obtain ⟨first, sums⟩ := chain
  change quiet held tokens = .ok (.operand first :: links .sum alone sums) at h
  fun_induction quiet held tokens generalizing first sums with
  | case1 held =>
      cases held with
      | none => cases h
      | some value =>
          cases sums with
          | cons => cases h
          | nil =>
              cases h
              exact ⟨⟨⟨first, []⟩, []⟩, rfl, rfl⟩
  | case2 held value rest ih =>
      cases held with
      | none => exact ih _ _ (by simpa using h)
      | some before =>
          obtain ⟨output, run, same⟩ := Except.map_eq_ok.mp h
          obtain ⟨result, more, rfl⟩ := head_of_held run
          cases sums <;> cases same
  | case3 left op right rest ih =>
      obtain ⟨⟨⟨head, products⟩, sums'⟩, yields, maps⟩ := ih _ _ h
      rw [Expression.tokens_mk] at yields
      obtain ⟨rfl, rfl⟩ : head = op.apply left right ∧
          links .product alone products ++ links .sum (Term.tokens alone) sums' = rest := by
        simpa [alone] using yields
      exact ⟨⟨⟨left, (op, right) :: products⟩, sums'⟩, Expression.tokens_mk .., maps⟩
  | case4 | case6 => cases h
  | case5 held op rest ih =>
      obtain ⟨output, run, same⟩ := Except.map_eq_ok.mp h
      cases held with
      | none => cases same
      | some value =>
          cases sums with
          | nil => cases same
          | cons link sums =>
              obtain ⟨op', value'⟩ := link
              cases same
              obtain ⟨⟨term, sums'⟩, yields, maps⟩ := ih _ _ run
              refine ⟨⟨⟨first, []⟩, (op', term) :: sums'⟩, ?_, ?_⟩
              · rw [Expression.tokens_mk, Chain.links_nil, Chain.links_cons]
                exact congrArg (.operand first :: .operator (.sum op') :: ·) yields
              · simp only [Chain.map, Chain.mk.injEq] at maps
                simp only [Chain.map, List.map_cons, maps]
                rfl

end Products

namespace Sums

/-- Operands that were left behind are never connected again. -/
theorem chain_of_fold {behind : Nat} {running : Option Float} {tokens : List Token} {value : Float}
    (h : fold behind running tokens = .ok value) :
    behind = 0 ∧ ∃ chain : Chain SumOp Float,
      chain.tokens .sum alone = release running tokens ∧ chain.value SumOp.apply id = value := by
  fun_induction fold behind running tokens with
  | case1 => cases h
  | case2 => cases h; exact ⟨rfl, ⟨value, []⟩, rfl, rfl⟩
  | case3 => cases h
  | case4 behind value rest ih => exact ih h
  | case5 behind running value rest ih => cases (ih h).1
  | case6 behind left op right rest ih =>
      obtain ⟨nothing, ⟨head, tail⟩, yields, computes⟩ := ih h
      obtain ⟨rfl, rfl⟩ : head = op.apply left right ∧ links .sum alone tail = rest := by
        simpa [Chain.tokens, alone] using yields
      exact ⟨nothing, ⟨left, (op, right) :: tail⟩, rfl, computes⟩
  | case7 | case8 => cases h

end Sums

end Reckoner
