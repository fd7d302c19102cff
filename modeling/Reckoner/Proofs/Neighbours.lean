import Mathlib.Data.List.Basic
import Reckoner.Diagnostic
import Reckoner.Fault
import Reckoner.Token

/-! # Tokens among their neighbours

What goes wrong in a calculation shows where it goes wrong: every fault is a condition on one token, the token before it
and the tokens after it.
-/

namespace Reckoner

namespace Token

def isOperand : Token → Bool
  | operand _ => true
  | operator _ => false

theorem isOperand_head? {rest : List Token} (noOperand : ∀ value more, rest = operand value :: more → False) :
    rest.head?.any isOperand = false := by
  cases rest with
  | nil => rfl
  | cons token rest =>
      cases token with
      | operator => rfl
      | operand value => exact (noOperand value rest rfl).elim

/-- The last token of an operand with its factorials. -/
def endsOperand : Token → Bool
  | operand _ | operator .factorial => true
  | _ => false

/-- A `+`, which may be a sign. -/
def isPlus : Token → Bool
  | operator (.sum .add) => true
  | _ => false

/-- The first token that is not a `+`. -/
def lead (tokens : List Token) : Option Token :=
  tokens.find? fun token => !token.isPlus

/-- Whether an operand can start here, after plus signs that do not count. -/
def startsFactor (tokens : List Token) : Bool :=
  match lead tokens with
  | none | some (operator (.product _)) => false
  | some _ => true

end Token

/-- A `!` that follows no operand, or a sign `-` with no operand right after it. -/
inductive SignFault where
  | factorial
  | minus
  deriving DecidableEq

namespace SignFault

def fault : SignFault → Fault
  | factorial => .danglingFactorial
  | minus => .danglingSign

def detail : SignFault → String
  | factorial => "\x27!\x27 must follow a number"
  | minus => "unary \x27-\x27 must precede a number"

theorem report_fault (sign : SignFault) : sign.fault.report = ⟨.misplacedOperator, sign.detail⟩ := by
  cases sign <;> decide

def diagnostic : SignFault → (position : Nat) → Diagnostic
  | factorial, position => .factorialAt position
  | minus, position => .signAt position

end SignFault

/-- A token, the one right before it, and all after it. -/
structure View where
  before : Option Token
  token : Token
  after : List Token

namespace View

def at? (tokens : List Token) (i : Nat) : Option View :=
  tokens[i]?.map fun token => ⟨if i = 0 then none else tokens[i - 1]?, token, tokens.drop (i + 1)⟩

/-- Whether an operand ends right before the token. -/
def afterOperand (view : View) : Bool :=
  view.before.any Token.endsOperand

/-- A `!` after no operand, or a `-` after no operand and before none. -/
def signFault? (view : View) : Option SignFault :=
  match view.token with
  | .operator .factorial => if view.afterOperand then none else some .factorial
  | .operator (.sum .subtract) =>
    if view.afterOperand || view.after.head?.any Token.isOperand then none else some .minus
  | _ => none

/-- A `*` or `/` after no operand, or with no operand to start after it. -/
def productFault? (view : View) : Option ProductOp :=
  match view.token with
  | .operator (.product op) => if view.afterOperand && Token.startsFactor view.after then none else some op
  | _ => none

/-- A `+` or `-` after an operand with nothing but plus signs after it. -/
def sumFault? (view : View) : Option SumOp :=
  match view.token with
  | .operator (.sum op) => if view.afterOperand && view.after.all Token.isPlus then some op else none
  | _ => none

/-- An operand right after another. -/
def isCrowded (view : View) : Bool :=
  view.token.isOperand && view.afterOperand

/-- A check finds something at a position and nothing before it. -/
def First {α : Type} (check : View → Option α) (tokens : List Token) (i : Nat) (found : α) : Prop :=
  (at? tokens i).bind check = some found ∧ ∀ j < i, (at? tokens j).bind check = none

/-- A check finds nothing at any position. -/
def Nowhere {α : Type} (check : View → Option α) (tokens : List Token) : Prop :=
  ∀ i, (at? tokens i).bind check = none

end View

/-- How many operands stand right after another. -/
def crowding (tokens : List Token) : Nat :=
  (List.range tokens.length).countP fun i => (View.at? tokens i).any View.isCrowded

/-- The views of all tokens, given the token before the list. -/
def views (before : Option Token) : List Token → List View
  | [] => []
  | token :: rest => ⟨before, token, rest⟩ :: views (some token) rest

theorem getElem?_views_succ (before : Option Token) (token : Token) (rest : List Token) (i : Nat) :
    (views before (token :: rest))[i + 1]? = (views (some token) rest)[i]? := rfl

theorem getElem?_views (before : Option Token) (tokens : List Token) (i : Nat) :
    (views before tokens)[i]? =
      tokens[i]?.map fun token => ⟨if i = 0 then before else tokens[i - 1]?, token, tokens.drop (i + 1)⟩ := by
  induction tokens generalizing before i with
  | nil => rfl
  | cons token rest ih =>
      cases i with
      | zero => rfl
      | succ i =>
          rw [getElem?_views_succ, ih]
          cases i <;> simp

theorem View.at?_eq (tokens : List Token) (i : Nat) : View.at? tokens i = (views none tokens)[i]? :=
  (getElem?_views none tokens i).symm

theorem length_views (before : Option Token) (tokens : List Token) : (views before tokens).length = tokens.length := by
  induction tokens generalizing before with
  | nil => rfl
  | cons token rest ih => exact congrArg (· + 1) (ih (some token))

theorem crowding_eq (tokens : List Token) : crowding tokens = (views none tokens).countP View.isCrowded := by
  have every : (List.range tokens.length).map (View.at? tokens) = (views none tokens).map some := by
    apply List.ext_getElem?
    intro i
    by_cases inside : i < tokens.length
    · have inside' : i < (views none tokens).length := (length_views none tokens).symm ▸ inside
      simp [View.at?_eq, inside, inside']
    · have outside : (views none tokens).length ≤ i := by rw [length_views]; omega
      simp [inside, outside]
  calc
    crowding tokens = ((List.range tokens.length).map (View.at? tokens)).countP (·.any View.isCrowded) := by
      rw [List.countP_map]
      rfl
    _ = (views none tokens).countP View.isCrowded := by
      rw [every, List.countP_map]
      rfl

/-- The first thing that a check finds, and its position when the positions are counted from here. -/
def View.locate {α : Type} (check : View → Option α) (position : Nat) : List View → Option (Nat × α)
  | [] => none
  | view :: rest =>
    match check view with
    | some found => some (position, found)
    | none => View.locate check (position + 1) rest

namespace View

variable {α : Type} {check : View → Option α}

theorem locate_eq_some {position i : Nat} {list : List View} {found : α} :
    locate check position list = some (i, found) ↔
      ∃ k, i = position + k ∧ list[k]?.bind check = some found ∧ ∀ j < k, list[j]?.bind check = none := by
  induction list generalizing position with
  | nil => simp [locate]
  | cons view rest ih =>
      cases here : check view with
      | none =>
          simp only [locate, here, ih]
          constructor
          · intro h
            obtain ⟨k, rfl, at_k, earlier⟩ := h
            refine ⟨k + 1, by omega, at_k, fun j bound => ?_⟩
            cases j with
            | zero => exact here
            | succ j => exact earlier j (by omega)
          · intro h
            obtain ⟨k, rfl, at_k, earlier⟩ := h
            cases k with
            | zero => cases here.symm.trans at_k
            | succ k => exact ⟨k, by omega, at_k, fun j bound => earlier (j + 1) (by omega)⟩
      | some other =>
          simp only [locate, here, Option.some.injEq, Prod.mk.injEq]
          constructor
          · intro h
            obtain ⟨rfl, rfl⟩ := h
            exact ⟨0, rfl, here, fun j bound => absurd bound (Nat.not_lt_zero j)⟩
          · intro h
            obtain ⟨k, rfl, at_k, earlier⟩ := h
            cases k with
            | zero => exact ⟨rfl, Option.some.inj (here.symm.trans at_k)⟩
            | succ k => cases here.symm.trans (earlier 0 (by omega))

theorem findSome?_eq_locate (position : Nat) (list : List View) :
    list.findSome? check = (locate check position list).map Prod.snd := by
  induction list generalizing position with
  | nil => rfl
  | cons view rest ih =>
      cases here : check view with
      | none => simpa only [List.findSome?_cons, locate, here] using ih (position + 1)
      | some found => simp only [List.findSome?_cons, locate, here, Option.map_some]

theorem locate_eq_first {tokens : List Token} {i : Nat} {found : α} :
    locate check 0 (views none tokens) = some (i, found) ↔ First check tokens i found := by
  simp [locate_eq_some, First, at?_eq]

theorem findSome?_eq_first {tokens : List Token} {found : α} :
    (views none tokens).findSome? check = some found ↔ ∃ i, First check tokens i found := by
  rw [findSome?_eq_locate 0]
  simp only [Option.map_eq_some_iff, Prod.exists, exists_eq_right, locate_eq_first]

theorem findSome?_eq_nowhere {tokens : List Token} :
    (views none tokens).findSome? check = none ↔ Nowhere check tokens := by
  simp only [Nowhere, at?_eq, List.findSome?_eq_none_iff]
  constructor
  · intro nothing i
    cases located : (views none tokens)[i]? with
    | none => rfl
    | some view => exact nothing view (List.mem_of_getElem? located)
  · intro nothing view member
    obtain ⟨i, located⟩ := List.getElem?_of_mem member
    simpa [located] using nothing i

end View

end Reckoner
