import Mathlib.Data.List.SplitBy
import Reckoner.Proofs.Splitting

/-! # Products between sums

Sums part the second stage into segments. In a segment of operands and products the operands that products join form
chains, each as long as it can be, and every chain comes down to its value.
-/

namespace Reckoner

open Token (alone release)
open Chain (links)

namespace Token

/-- An operand, or an operator that joins factors. -/
def isFactorwise : Token → Bool
  | operand _ | operator (.product _) => true
  | _ => false

/-- Whether a token and the next one belong to one chain. Two operands do not. -/
def linked (token next : Token) : Bool :=
  !(token.isOperand && next.isOperand)

end Token

/-- A `*` or `/` without an operand right before it and another right after it. -/
def View.unflanked? (view : View) : Option ProductOp :=
  match view.token with
  | .operator (.product op) =>
    if view.before.any Token.isOperand && view.after.head?.any Token.isOperand then none else some op
  | _ => none

/-- Among operands and products, what a product needs stands right beside it or nowhere. -/
theorem View.productFault?_factorwise {view : View} (before : ∀ token ∈ view.before, token.isFactorwise = true)
    (after : ∀ token ∈ view.after, token.isFactorwise = true) : view.productFault? = view.unflanked? := by
  obtain ⟨last, token, rest⟩ := view
  have ends : last.any Token.endsOperand = last.any Token.isOperand := by
    match last, before with
    | none, _ | some (.operand _), _ | some (.operator (.product _)), _ => rfl
    | some (.operator .factorial), before | some (.operator (.sum _)), before => cases before _ rfl
  have starts : Token.startsFactor rest = rest.head?.any Token.isOperand := by
    match rest, after with
    | [], _ | .operand _ :: _, _ | .operator (.product _) :: _, _ => rfl
    | .operator .factorial :: _, after | .operator (.sum _) :: _, after => cases after _ List.mem_cons_self
  match token with
  | .operand _ | .operator (.sum _) | .operator .factorial => rfl
  | .operator (.product _) => simp only [productFault?, unflanked?, afterOperand, ends, starts]

theorem findSome?_factorwise (before : Option Token) {tokens : List Token}
    (first : ∀ token ∈ before, token.isFactorwise = true) (factorwise : ∀ token ∈ tokens, token.isFactorwise = true) :
    (views before tokens).findSome? View.productFault? = (views before tokens).findSome? View.unflanked? := by
  induction tokens generalizing before with
  | nil => rfl
  | cons token rest ih =>
      rw [List.forall_mem_cons] at factorwise
      have tail := ih (some token) (by simpa using factorwise.1) factorwise.2
      have here : View.productFault? ⟨before, token, rest⟩ = View.unflanked? ⟨before, token, rest⟩ :=
        View.productFault?_factorwise first factorwise.2
      simp only [views, List.findSome?_cons, here, tail]

theorem Settled.of_factorwise {tokens : List Token} (factorwise : ∀ token ∈ tokens, token.isFactorwise = true)
    (follows : Bool) : Settled true follows tokens := by
  induction tokens generalizing follows with
  | nil => trivial
  | cons token rest ih =>
      rw [List.forall_mem_cons] at factorwise
      match token, factorwise with
      | .operand _, factorwise => exact ih factorwise.2 true
      | .operator (.product _), factorwise => exact ⟨rfl, ih factorwise.2 false⟩

namespace Chain

theorem isChain_links (value : Float) (products : List (ProductOp × Float)) :
    (.operand value :: links .product alone products).IsChain fun token next => Token.linked token next := by
  induction products generalizing value with
  | nil => exact .singleton _
  | cons link products ih => exact .cons_cons rfl (.cons_cons rfl (ih link.2))

theorem getLast_links (value : Float) (products : List (ProductOp × Float)) :
    ∃ last, (.operand value :: links .product alone products).getLast? = some (.operand last) := by
  induction products generalizing value with
  | nil => exact ⟨value, rfl⟩
  | cons link products ih =>
      obtain ⟨last, found⟩ := ih link.2
      refine ⟨last, ?_⟩
      rw [links_cons, List.getLast?_cons_cons]
      exact (List.getLast?_cons_cons ..).trans found

end Chain

/-- Tokens that are put together from chains are cut into these chains again. -/
theorem splitBy_terms (terms : List (Term Float)) :
    (terms.flatMap (Term.tokens alone)).splitBy Token.linked = terms.map (Term.tokens alone) := by
  induction terms with
  | nil => rfl
  | cons term terms ih =>
      have filled : Term.tokens alone term ≠ [] := List.cons_ne_nil _ _
      have chain : (Term.tokens alone term).splitBy Token.linked = [Term.tokens alone term] :=
        List.splitBy_of_isChain filled (Chain.isChain_links term.head term.tail)
      have apart : ∀ last ∈ (Term.tokens alone term).getLast?,
          ∀ next ∈ (terms.flatMap (Term.tokens alone)).head?, Token.linked last next = false := by
        intro last atEnd next atStart
        obtain ⟨value, found⟩ := Chain.getLast_links term.head term.tail
        cases atEnd.symm.trans found
        cases terms with
        | nil => cases atStart
        | cons term terms =>
            cases atStart
            rfl
      rw [List.flatMap_cons, List.splitBy_append apart, chain, ih]
      rfl

namespace Products

/-- The values of chains. -/
def values (terms : List (Term Float)) : List Token :=
  terms.map fun term => .operand (term.value id)

/-- Chains side by side come out as their values. -/
theorem quiet_terms (held : Option Float) (terms : List (Term Float)) :
    quiet held (terms.flatMap (Term.tokens alone)) = .ok (release held (values terms)) := by
  induction terms generalizing held with
  | nil => rfl
  | cons term terms ih =>
      obtain ⟨head, products⟩ := term
      calc
        quiet held (.operand head :: (links .product alone products ++ terms.flatMap (Term.tokens alone))) =
            (quiet (some head) (links .product alone products ++ terms.flatMap (Term.tokens alone))).map
              (release held) := rfl
        _ = .ok (release held (values (⟨head, products⟩ :: terms))) := by
          rw [quiet_products, ih]
          rfl

theorem terms_of_quiet {held : Option Float} {tokens output : List Token}
    (factorwise : ∀ token ∈ tokens, token.isFactorwise = true) (h : quiet held tokens = .ok output) :
    ∃ terms, terms.flatMap (Term.tokens alone) = release held tokens ∧ values terms = output := by
  -- The held operand starts the first chain. Another operand after it ends that chain, a product goes on with it.
  fun_induction quiet held tokens generalizing output with
  | case1 held =>
      cases h
      cases held with
      | none => exact ⟨[], rfl, rfl⟩
      | some value => exact ⟨[⟨value, []⟩], rfl, rfl⟩
  | case2 held value rest ih =>
      obtain ⟨output, run, rfl⟩ := Except.map_eq_ok.mp h
      obtain ⟨terms, yields, rfl⟩ := ih (List.forall_mem_cons.mp factorwise).2 run
      cases held with
      | none => exact ⟨terms, yields, rfl⟩
      | some before => exact ⟨⟨before, []⟩ :: terms, congrArg (Token.operand before :: ·) yields, rfl⟩
  | case3 left op right rest ih =>
      obtain ⟨terms, yields, rfl⟩ := ih (List.forall_mem_cons.mp (List.forall_mem_cons.mp factorwise).2).2 h
      cases terms with
      | nil => cases yields
      | cons term others =>
          obtain ⟨head, products⟩ := term
          obtain ⟨rfl, rfl⟩ : head = op.apply left right ∧
              links .product alone products ++ others.flatMap (Term.tokens alone) = rest := by
            simpa [Term.tokens, Chain.tokens, alone] using yields
          exact ⟨⟨left, (op, right) :: products⟩ :: others, rfl, rfl⟩
  | case4 | case6 => cases h
  | case5 held op rest ih => cases factorwise _ List.mem_cons_self

/-- A segment comes down to the values of its chains. -/
theorem quiet_eq_ok {segment output : List Token} (factorwise : ∀ token ∈ segment, token.isFactorwise = true) :
    quiet none segment = .ok output ↔
      ∃ terms, terms.map (Term.tokens alone) = segment.splitBy Token.linked ∧ values terms = output := by
  constructor
  · intro h
    obtain ⟨terms, rfl, rfl⟩ := terms_of_quiet factorwise h
    exact ⟨terms, (splitBy_terms terms).symm, rfl⟩
  · intro h
    obtain ⟨terms, chains, rfl⟩ := h
    have yields : terms.flatMap (Term.tokens alone) = segment := by
      rw [List.flatMap_def, chains, List.flatten_splitBy]
    rw [← yields]
    exact quiet_terms none terms

/-- A segment has a result if each of its products has an operand on either side. -/
theorem quiet_ok_iff {segment : List Token} (factorwise : ∀ token ∈ segment, token.isFactorwise = true) :
    (∃ output, quiet none segment = .ok output) ↔ View.Nowhere View.unflanked? segment := by
  have settled : Settled true (none : Option Float).isSome segment := .of_factorwise factorwise false
  rw [← Except.error?_eq_none, error?_quiet settled, Option.map_eq_none_iff, Option.isSome_none, ← findSome?_productFault,
    findSome?_factorwise none (by simp) factorwise, View.findSome?_eq_nowhere]

/-- The second stage works segment by segment, as sums part them: its output is put together from those of the segments,
and of several faults the first wins. A segment of operands and products has a result if and only if every product has an
operand right on either side. It is the values of its chains, in order and each computed from left to right, where a chain
goes on as long as products join its operands. -/
theorem segment_by_segment :
    (∀ before op after,
      (resolve (before ++ .operator (.sum op) :: after)).outcome =
        (resolve before).outcome.bind fun first => (resolve after).outcome.map (first ++ .operator (.sum op) :: ·)) ∧
      ∀ segment, (∀ token ∈ segment, token.isFactorwise = true) →
        ((∃ output, (resolve segment).outcome = .ok output) ↔ View.Nowhere View.unflanked? segment) ∧
          ∀ output, (resolve segment).outcome = .ok output ↔
            ∃ terms, terms.map (Term.tokens alone) = segment.splitBy Token.linked ∧ values terms = output := by
  refine ⟨fun before op after => ?parts, fun segment factorwise => ?segment⟩
  case parts =>
    simpa only [outcome_resolve, Traced.outcome_bind, Traced.outcome_map, outcome_scan] using
      congrArg Traced.outcome (scan_append 0 none before after op)
  case segment =>
    simp only [outcome_resolve]
    exact ⟨quiet_ok_iff factorwise, fun output => quiet_eq_ok factorwise⟩

/-- A quotient times a factor, and then an operand on its own. -/
theorem quotient_times_factor :
    have segment : List Token := [.operand 8, .operator (.product .divide), .operand 4, .operator (.product .multiply),
      .operand 2, .operand 5]
    (∀ token ∈ segment, token.isFactorwise = true) ∧ View.Nowhere View.unflanked? segment ∧
      (resolve segment).outcome =
        .ok [.operand (ProductOp.multiply.apply (ProductOp.divide.apply 8 4) 2), .operand 5] := by
  intro segment
  have factorwise : ∀ token ∈ segment, token.isFactorwise = true := by simp [segment, Token.isFactorwise]
  obtain ⟨settles, comesTo⟩ := segment_by_segment.2 segment factorwise
  have result := (comesTo _).mpr ⟨[⟨8, [(.divide, 4), (.multiply, 2)]⟩, ⟨5, []⟩], rfl, rfl⟩
  exact ⟨factorwise, settles.mp ⟨_, result⟩, result⟩

end Products

end Reckoner
