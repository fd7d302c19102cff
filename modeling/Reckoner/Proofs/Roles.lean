import Reckoner.Proofs.Neighbours
import Reckoner.Proofs.Quiet

/-! # Roles of tokens

What a token is to a calculation depends on its neighbours alone, and the stages keep it so: settling signs and
factorials changes no role, and computing products changes only those of the products and of their right factors.
-/

namespace Reckoner

open Token (release)

/-- What a token is to a calculation whose signs and factorials are settled. -/
inductive Role where
  /-- An operand, which may stand right after another. -/
  | operand (crowded : Bool)
  /-- A `+` or `-` between operands, unless nothing but plus signs follows. -/
  | sum (op : SumOp) (unfinished : Bool)
  /-- A `*` or `/`, which may have both its operands. -/
  | product (op : ProductOp) (complete : Bool)
  deriving DecidableEq

namespace Role

def incomplete? : Role → Option ProductOp
  | product op false => some op
  | _ => none

def unfinished? : Role → Option SumOp
  | sum op true => some op
  | _ => none

def isCrowded : Role → Bool
  | operand crowded => crowded
  | _ => false

/-- Whether the role outlives the computation of products. -/
def outlivesProducts : Role → Bool
  | operand crowded => crowded
  | sum _ _ => true
  | product _ _ => false

theorem findSome?_outlives (list : List Role) :
    (list.filter outlivesProducts).findSome? unfinished? = list.findSome? unfinished? := by
  rw [← List.head?_filterMap, ← List.head?_filterMap, List.filterMap_filter]
  congr 2
  funext role
  match role with
  | operand crowded => cases crowded <;> rfl
  | sum _ _ | product _ _ => rfl

theorem countP_outlives (list : List Role) :
    (list.filter outlivesProducts).countP isCrowded = list.countP isCrowded := by
  rw [List.countP_filter]
  congr 1
  funext role
  match role with
  | operand crowded => exact Bool.and_self crowded
  | sum _ _ | product _ _ => rfl

end Role

/-- The roles of the tokens that have one, given whether an operand ends right before them. -/
def roles (follows : Bool) : List Token → List Role
  | [] => []
  | .operand _ :: rest => .operand follows :: roles true rest
  | .operator .factorial :: rest => roles true rest
  | .operator (.sum op) :: rest =>
    if follows then .sum op (rest.all Token.isPlus) :: roles false rest else roles false rest
  | .operator (.product op) :: rest => .product op (follows && Token.startsFactor rest) :: roles false rest

/-- The role of a token among its neighbours. A sign and a `!` have none. -/
def View.role? (view : View) : Option Role :=
  match view.token with
  | .operand _ => some (.operand view.afterOperand)
  | .operator .factorial => none
  | .operator (.sum op) => if view.afterOperand then some (.sum op (view.after.all Token.isPlus)) else none
  | .operator (.product op) => some (.product op (view.afterOperand && Token.startsFactor view.after))

theorem filterMap_role (before : Option Token) (tokens : List Token) :
    (views before tokens).filterMap View.role? = roles (before.any Token.endsOperand) tokens := by
  induction tokens generalizing before with
  | nil => rfl
  | cons token rest ih =>
      have tail := ih (some token)
      match token, tail with
      | .operand _, tail => exact congrArg (_ :: ·) tail
      | .operator .factorial, tail => exact tail
      | .operator (.product _), tail => exact congrArg (_ :: ·) tail
      | .operator (.sum _), tail =>
          by_cases follows : before.any Token.endsOperand
          · simp only [views, roles, List.filterMap_cons, View.role?, View.afterOperand, follows, if_true]
            exact congrArg (_ :: ·) tail
          · simp only [views, roles, List.filterMap_cons, View.role?, View.afterOperand, follows, Bool.false_eq_true,
              if_false]
            exact tail

namespace View

theorem productFault?_eq (view : View) : view.productFault? = view.role?.bind Role.incomplete? := by
  obtain ⟨before, token, after⟩ := view
  match token with
  | .operand _ | .operator .factorial => rfl
  | .operator (.sum _) => simp only [productFault?, role?]; split <;> rfl
  | .operator (.product _) =>
      simp only [productFault?, role?]
      cases afterOperand ⟨before, _, after⟩ && Token.startsFactor after <;> rfl

theorem sumFault?_eq (view : View) : view.sumFault? = view.role?.bind Role.unfinished? := by
  obtain ⟨before, token, after⟩ := view
  match token with
  | .operand _ | .operator .factorial | .operator (.product _) => rfl
  | .operator (.sum _) =>
      simp only [sumFault?, role?]
      cases afterOperand ⟨before, _, after⟩ <;> cases after.all Token.isPlus <;> rfl

theorem isCrowded_eq (view : View) : view.isCrowded = (view.role?.map Role.isCrowded).getD false := by
  obtain ⟨before, token, after⟩ := view
  match token with
  | .operand _ | .operator .factorial | .operator (.product _) => rfl
  | .operator (.sum _) => simp only [isCrowded, role?]; split <;> rfl

end View

theorem findSome?_productFault (tokens : List Token) :
    (views none tokens).findSome? View.productFault? = (roles false tokens).findSome? Role.incomplete? := by
  rw [← List.head?_filterMap, ← List.head?_filterMap, funext View.productFault?_eq, ← List.filterMap_filterMap,
    filterMap_role]
  rfl

theorem findSome?_sumFault (tokens : List Token) :
    (views none tokens).findSome? View.sumFault? = (roles false tokens).findSome? Role.unfinished? := by
  rw [← List.head?_filterMap, ← List.head?_filterMap, funext View.sumFault?_eq, ← List.filterMap_filterMap,
    filterMap_role]
  rfl

theorem crowding_eq_countP (tokens : List Token) : crowding tokens = (roles false tokens).countP Role.isCrowded := by
  rw [crowding_eq, funext View.isCrowded_eq, ← List.countP_filterMap, filterMap_role]
  rfl

/-- No `!` is left, and every `+` and `-` follows an operand. Products may be left or not. -/
def Settled (products : Bool) : (follows : Bool) → List Token → Prop
  | _, [] => True
  | _, .operand _ :: rest => Settled products true rest
  | _, .operator .factorial :: _ => False
  | follows, .operator (.sum _) :: rest => follows = true ∧ Settled products false rest
  | _, .operator (.product _) :: rest => products = true ∧ Settled products false rest

/-- Where neither signs nor products are left, only an operand can come first. -/
theorem Settled.start {tokens : List Token} (settled : Settled false false tokens) :
    tokens = [] ∨ ∃ value rest, tokens = .operand value :: rest := by
  cases tokens with
  | nil => exact .inl rfl
  | cons token rest =>
      cases token with
      | operand value => exact .inr ⟨value, rest, rfl⟩
      | operator op =>
          cases op with
          | factorial => exact settled.elim
          | sum | product => cases settled.1

namespace Signs

/-- What starts a list of factors is the same once signs are settled. -/
theorem lead_quiet {tokens output : List Token} (h : quiet none tokens = .ok output) :
    Token.startsFactor tokens = Token.startsFactor output ∧ tokens.all Token.isPlus = output.all Token.isPlus := by
  induction tokens with
  | nil => cases h; exact ⟨rfl, rfl⟩
  | cons token rest ih =>
      match token, rest, h with
      | .operand value, rest, h =>
          obtain ⟨result, more, rfl⟩ := head_of_held (by simpa [quiet] using h)
          exact ⟨rfl, rfl⟩
      | .operator (.sum .add), rest, h => exact ih (by simpa [quiet] using h)
      | .operator (.sum .subtract), .operand value :: rest, h =>
          obtain ⟨result, more, rfl⟩ := head_of_held (by simpa [quiet] using h)
          exact ⟨rfl, rfl⟩
      | .operator (.product op), rest, h =>
          obtain ⟨output, -, rfl⟩ := Except.map_eq_ok.mp (by simpa only [quiet] using h)
          exact ⟨rfl, rfl⟩

theorem settled_quiet {held : Option Float} {tokens output : List Token} (h : quiet held tokens = .ok output)
    (follows : Bool) : Settled true follows output := by
  fun_induction quiet held tokens generalizing output follows with
  | case1 held => cases held <;> cases h <;> trivial
  | case2 held value rest ih =>
      obtain ⟨output, run, rfl⟩ := Except.map_eq_ok.mp h
      cases held with
      | none => exact ih run follows
      | some before => exact ih run true
  | case3 | case6 | case7 => rename_i ih; exact ih h follows
  | case4 | case8 => cases h
  | case5 value op rest ih =>
      obtain ⟨output, run, rfl⟩ := Except.map_eq_ok.mp h
      exact ⟨rfl, ih run false⟩
  | case9 held op rest ih =>
      obtain ⟨output, run, rfl⟩ := Except.map_eq_ok.mp h
      cases held with
      | none => exact ⟨rfl, ih run false⟩
      | some value => exact ⟨rfl, ih run false⟩

/-- Settling signs and factorials changes no role. A sign has none because no operand ends before it. -/
theorem roles_quiet {held : Option Float} {tokens output : List Token} (h : quiet held tokens = .ok output)
    (follows : Bool) (start : held = none → follows = false) :
    roles follows (release held tokens) = roles follows output := by
  -- A held operand stands for itself and its factorials, none of which has a role of its own.
  fun_induction quiet held tokens generalizing output follows with
  | case1 => cases h; rfl
  | case2 held value rest ih =>
      obtain ⟨output, run, rfl⟩ := Except.map_eq_ok.mp h
      cases held with
      | none => exact ih run follows (by simp)
      | some before => exact congrArg (.operand follows :: ·) (ih run true (by simp))
  | case3 value rest ih => exact ih h follows (by simp)
  | case4 | case8 => cases h
  | case5 value op rest ih =>
      obtain ⟨output, run, rfl⟩ := Except.map_eq_ok.mp h
      have tail := ih run false (by simp)
      simp only [Token.release_some, roles, if_true, (lead_quiet run).2]
      exact congrArg (.operand follows :: .sum op (output.all Token.isPlus) :: ·) tail
  | case6 rest ih =>
      cases start rfl
      exact ih h false (by simp)
  | case7 value rest ih =>
      cases start rfl
      exact ih h false (by simp)
  | case9 held op rest ih =>
      obtain ⟨output, run, rfl⟩ := Except.map_eq_ok.mp h
      have tail := ih run false (by simp)
      cases held with
      | none =>
          simp only [Token.release_none, roles, (lead_quiet run).1]
          exact congrArg (_ :: ·) tail
      | some value =>
          simp only [Token.release_some, roles, (lead_quiet run).1]
          exact congrArg (_ :: _ :: ·) tail

end Signs

namespace Products

/-- The stage stops at the first product that lacks an operand. -/
theorem error?_quiet {held : Option Float} {tokens : List Token} (settled : Settled true held.isSome tokens) :
    (quiet held tokens).error? = ((roles held.isSome tokens).findSome? Role.incomplete?).map .incompleteProduct := by
  fun_induction quiet held tokens with
  | case1 => rfl
  | case2 held value rest ih =>
      rw [Except.error?_map]
      exact ih settled
  | case3 left op right rest ih => exact ih settled.2
  | case4 held op rest incomplete =>
      cases held with
      | none => rfl
      | some left =>
          cases rest with
          | nil => rfl
          | cons token rest =>
              cases token with
              | operand right => exact (incomplete left right rest rfl rfl).elim
              | operator op =>
                  cases op with
                  | factorial => exact settled.2.elim
                  | sum => cases settled.2.1
                  | product => rfl
  | case5 held op rest ih =>
      rw [Except.error?_map, ih settled.2]
      simp only [settled.1]
      rfl
  | case6 => exact settled.elim

theorem allPlus_quiet {tokens output : List Token} (h : quiet none tokens = .ok output) :
    tokens.all Token.isPlus = output.all Token.isPlus := by
  induction tokens generalizing output with
  | nil => cases h; rfl
  | cons token rest ih =>
      match token, h with
      | .operand value, h =>
          obtain ⟨result, more, rfl⟩ := head_of_held (by simpa [quiet] using h)
          rfl
      | .operator (.sum op), h =>
          obtain ⟨output, run, rfl⟩ := Except.map_eq_ok.mp (by simpa only [quiet] using h)
          exact congrArg (_ && ·) (ih run)
      | .operator (.product op), h => simp [quiet] at h

theorem settled_quiet {held : Option Float} {tokens output : List Token} (settled : Settled true held.isSome tokens)
    (h : quiet held tokens = .ok output) (follows : Bool) : Settled false follows output := by
  fun_induction quiet held tokens generalizing output follows with
  | case1 held => cases held <;> cases h <;> trivial
  | case2 held value rest ih =>
      obtain ⟨output, run, rfl⟩ := Except.map_eq_ok.mp h
      cases held with
      | none => exact ih settled run follows
      | some before => exact ih settled run true
  | case3 left op right rest ih => exact ih settled.2 h follows
  | case4 | case6 => cases h
  | case5 held op rest ih =>
      obtain ⟨output, run, rfl⟩ := Except.map_eq_ok.mp h
      cases held with
      | none => cases settled.1
      | some value => exact ⟨rfl, ih settled.2 run false⟩

/-- Sums and crowded operands stay what they are when products are computed. -/
theorem roles_quiet {held : Option Float} {tokens output : List Token} (h : quiet held tokens = .ok output)
    (follows : Bool) :
    (roles follows (release held tokens)).filter Role.outlivesProducts =
      (roles follows output).filter Role.outlivesProducts := by
  fun_induction quiet held tokens generalizing output follows with
  | case1 held => cases h; rfl
  | case2 held value rest ih =>
      obtain ⟨output, run, rfl⟩ := Except.map_eq_ok.mp h
      cases held with
      | none => exact ih run follows
      | some before =>
          have tail := ih run true
          simp only [Token.release_some, roles, List.filter_cons] at tail ⊢
          rw [tail]
  | case3 left op right rest ih =>
      -- The left factor keeps its place, the product and the right factor lose theirs, and neither role outlives.
      rw [← ih h follows]
      cases follows <;> simp [roles, List.filter_cons, Role.outlivesProducts]
  | case4 | case6 => cases h
  | case5 held op rest ih =>
      obtain ⟨output, run, rfl⟩ := Except.map_eq_ok.mp h
      have tail := ih run false
      rw [Token.release_none] at tail
      cases held with
      | none =>
          simp only [Token.release_none, roles, allPlus_quiet run]
          cases follows <;> simp [List.filter_cons, Role.outlivesProducts, tail]
      | some value =>
          simp only [Token.release_some, roles, if_true, List.filter_cons, Role.outlivesProducts, tail,
            allPlus_quiet run]

end Products

end Reckoner
