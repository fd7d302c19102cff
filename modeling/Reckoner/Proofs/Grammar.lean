import Mathlib.Logic.Function.Iterate
import Reckoner.Factorial
import Reckoner.Token

/-! # The grammar of calculations

A calculation is a chain of terms joined by sums, a term a chain of factors joined by products, and a factor an operand
between its signs and its factorials. A tree yields the tokens that it was read from and has a value of its own, which
knows nothing of stages.
-/

namespace Reckoner

/-- Items joined by operators of one kind: the first item, and each further one with the operator before it. -/
structure Chain (Op Item : Type) where
  head : Item
  tail : List (Op × Item)

namespace Chain

variable {Op Item Other : Type}

def links (symbol : Op → Operator) (item : Item → List Token) (tail : List (Op × Item)) : List Token :=
  tail.flatMap fun link => .operator (symbol link.1) :: item link.2

def tokens (symbol : Op → Operator) (item : Item → List Token) (chain : Chain Op Item) : List Token :=
  item chain.head ++ links symbol item chain.tail

/-- The value of a chain, computed from left to right. -/
def value (apply : Op → Float → Float → Float) (item : Item → Float) (chain : Chain Op Item) : Float :=
  chain.tail.foldl (fun left link => apply link.1 left (item link.2)) (item chain.head)

def map (f : Item → Other) (chain : Chain Op Item) : Chain Op Other :=
  ⟨f chain.head, chain.tail.map fun link => (link.1, f link.2)⟩

@[simp] theorem links_nil (symbol : Op → Operator) (item : Item → List Token) : links symbol item [] = [] := rfl

@[simp] theorem links_cons (symbol : Op → Operator) (item : Item → List Token) (op : Op) (x : Item)
    (tail : List (Op × Item)) :
    links symbol item ((op, x) :: tail) = .operator (symbol op) :: (item x ++ links symbol item tail) := rfl

theorem value_map (apply : Op → Float → Float → Float) (item : Other → Float) (f : Item → Other)
    (chain : Chain Op Item) : (chain.map f).value apply item = chain.value apply (item ∘ f) := by
  simp only [value, map, List.foldl_map, Function.comp_apply]

end Chain

/-- Factors, or what stands in their place, joined by products. -/
abbrev Term (Leaf : Type) := Chain ProductOp Leaf

/-- Terms joined by sums. -/
abbrev Expression (Leaf : Type) := Chain SumOp (Term Leaf)

variable {Leaf Other : Type}

def Term.tokens (leaf : Leaf → List Token) (term : Term Leaf) : List Token :=
  Chain.tokens .product leaf term

def Term.value (leaf : Leaf → Float) (term : Term Leaf) : Float :=
  Chain.value ProductOp.apply leaf term

def Expression.tokens (leaf : Leaf → List Token) (expression : Expression Leaf) : List Token :=
  Chain.tokens .sum (Term.tokens leaf) expression

def Expression.value (leaf : Leaf → Float) (expression : Expression Leaf) : Float :=
  Chain.value SumOp.apply (Term.value leaf) expression

def Expression.map (f : Leaf → Other) (expression : Expression Leaf) : Expression Other :=
  Chain.map (Chain.map f) expression

/-- An operand with its signs and its factorials: plus signs first, then perhaps a minus sign right before the operand. -/
structure Factor where
  pluses : Nat
  negated : Bool
  operand : Float
  factorials : Nat

namespace Factor

/-- A factor without signs. -/
def plain (operand : Float) (factorials : Nat) : Factor := ⟨0, false, operand, factorials⟩

def tokens (factor : Factor) : List Token :=
  List.replicate factor.pluses (.operator (.sum .add)) ++
    ((if factor.negated then [.operator (.sum .subtract)] else []) ++
      .operand factor.operand :: List.replicate factor.factorials (.operator .factorial))

/-- The value of a factor. The sign binds before the factorials. -/
def value (factor : Factor) : Float :=
  Factorial.value^[factor.factorials] (if factor.negated then -factor.operand else factor.operand)

end Factor

/-- An operand that a stage has computed. -/
def Token.alone (value : Float) : List Token := [.operand value]

end Reckoner
