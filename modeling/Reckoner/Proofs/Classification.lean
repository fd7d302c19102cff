import Reckoner.Proofs.Derivation
import Reckoner.Proofs.Roles

/-! # Faults and where they come from

Which fault a list of tokens leads to, and in which stage, is decided by conditions on neighbouring tokens. Among several
faults of one stage the first in the list wins; a fault of an earlier stage wins over all of later ones.
-/

namespace Reckoner

open Token (release)

theorem Fault.eq_and_report {fault other : Fault} {report : Report} (known : other.report = report) :
    fault = other ↔ fault = other ∧ fault.report = report :=
  ⟨fun same => ⟨same, same ▸ known⟩, And.left⟩

namespace Signs

theorem diagnostics_factorial (n : Float) : (factorial n).diagnostics = [] := by
  rw [factorial, Handler.factorial, Traced.diagnostics_bind]
  simp [Handler.traced]

/-- The stage stops at the first `!` or sign that lacks its operand, and tells where. -/
theorem scan_locate {position : Nat} {held : Option Float} {tokens : List Token} (before : Option Token)
    (start : before.any Token.endsOperand = held.isSome) :
    (scan position held tokens).outcome.error? =
        (View.locate View.signFault? position (views before tokens)).map (·.2.fault) ∧
      (scan position held tokens).diagnostics =
        ((View.locate View.signFault? position (views before tokens)).map fun found =>
          found.2.diagnostic found.1).toList := by
  unfold scan
  fun_induction work Handler.traced position held tokens generalizing before with
  | case1 => exact ⟨rfl, rfl⟩
  | case2 position held value rest ih =>
      rw [Traced.outcome_map, Except.error?_map, Traced.diagnostics_map]
      exact ih (some (.operand value)) rfl
  | case3 position value rest ih =>
      rw [Traced.outcome_bind, Traced.diagnostics_bind_ok (outcome_factorial value), diagnostics_factorial,
        outcome_factorial]
      simp only [views, View.locate, View.signFault?, View.afterOperand, start, Option.isSome_some, if_true]
      exact ih (Factorial.quiet value) (some (.operator .factorial)) rfl
  | case4 position rest =>
      simp only [views, View.locate, View.signFault?, View.afterOperand, start]
      exact ⟨rfl, rfl⟩
  | case5 position value op rest ih =>
      rw [Traced.outcome_map, Except.error?_map, Traced.diagnostics_map]
      cases op <;> simp only [views, View.locate, View.signFault?, View.afterOperand, start, Option.isSome_some,
        Bool.true_or, if_true] <;> exact ih (some (.operator (.sum _))) rfl
  | case6 position rest ih => exact ih (some (.operator (.sum .add))) rfl
  | case7 position value rest ih =>
      simp only [views, View.locate, View.signFault?, View.afterOperand, start, List.head?_cons, Option.any_some,
        Token.isOperand, Bool.or_true, if_true]
      exact ih (some (.operand value)) rfl
  | case8 position rest noOperand =>
      have other : rest.head?.any Token.isOperand = false := Token.isOperand_head? noOperand
      simp only [views, View.locate, View.signFault?, View.afterOperand, start, other]
      exact ⟨rfl, rfl⟩
  | case9 position held op rest ih =>
      rw [Traced.outcome_map, Except.error?_map, Traced.diagnostics_map]
      exact ih (some (.operator (.product op))) rfl

end Signs

namespace Sums

/-- The fault of a sum, given the first `+` or `-` with nothing to its right, whether there is anything at all, and how many
operands stand right after another. -/
def fault? (unfinished : Option SumOp) (nothing : Bool) (crowding : Nat) : Option Fault :=
  match unfinished with
  | some op => some (.incompleteSum op)
  | none => if nothing then some .empty else if crowding = 0 then none else some (.unconnected (crowding + 1))

theorem fault?_eq_some {unfinished : Option SumOp} {nothing : Bool} {crowding : Nat} {fault : Fault} :
    fault? unfinished nothing crowding = some fault ↔
      (∃ op, unfinished = some op ∧ fault = .incompleteSum op) ∨
        unfinished = none ∧
          (nothing = true ∧ fault = .empty ∨ nothing = false ∧ 0 < crowding ∧ fault = .unconnected (crowding + 1)) := by
  cases unfinished with
  | some op => simp [fault?, eq_comm]
  | none =>
      cases nothing with
      | true => simp [fault?, eq_comm]
      | false =>
          cases crowding with
          | zero => simp [fault?]
          | succ count => simp [fault?, eq_comm]

theorem fault?_eq_none {unfinished : Option SumOp} {nothing : Bool} {crowding : Nat} :
    fault? unfinished nothing crowding = none ↔ unfinished = none ∧ nothing = false ∧ crowding = 0 := by
  cases unfinished with
  | some op => simp [fault?]
  | none => cases nothing <;> simp [fault?]

theorem error?_fold {behind : Nat} {running : Option Float} {tokens : List Token}
    (settled : Settled false running.isSome tokens) :
    (fold behind running tokens).error? =
      fault? ((roles running.isSome tokens).findSome? Role.unfinished?) (running.isNone && tokens.isEmpty)
        (behind + (roles running.isSome tokens).countP Role.isCrowded) := by
  fun_induction fold behind running tokens with
  | case1 => rfl
  | case2 => rfl
  | case3 behind value some => simp [fault?, roles, some]
  | case4 behind value rest ih => exact ih settled
  | case5 behind running value rest ih =>
      rw [ih settled]
      have count : behind + 1 + (roles true rest).countP Role.isCrowded =
          behind + (roles true (.operand value :: rest)).countP Role.isCrowded := by
        rw [roles, List.countP_cons]
        simp only [Role.isCrowded, if_true]
        omega
      exact congrArg (fault? _ false) count
  | case6 behind left op right rest ih => exact ih settled.2
  | case7 behind running op rest incomplete =>
      cases running with
      | none => cases settled.1
      | some left =>
          rcases settled.2.start with rfl | ⟨right, others, rfl⟩
          · rfl
          · exact (incomplete left right others rfl rfl).elim
  | case8 behind running op rest notSum _ =>
      cases op with
      | factorial => exact settled.elim
      | sum op => exact (notSum op rfl).elim
      | product => cases settled.1

end Sums

namespace Evaluation

/-- The first stage stops. -/
def StopsAtSigns (tokens : List Token) (fault : Fault) : Prop :=
  (Signs.resolve tokens).outcome = .error fault

/-- The second stage stops, on the output of the first. -/
def StopsAtProducts (tokens : List Token) (fault : Fault) : Prop :=
  ∃ binary, (Signs.resolve tokens).outcome = .ok binary ∧ (Products.resolve binary).outcome = .error fault

/-- The third stage stops, on the output of the second. -/
def StopsAtSums (tokens : List Token) (fault : Fault) : Prop :=
  ∃ binary sums, (Signs.resolve tokens).outcome = .ok binary ∧ (Products.resolve binary).outcome = .ok sums ∧
    (Sums.resolve sums).outcome = .error fault

theorem error_iff_stops {tokens : List Token} {fault : Fault} :
    (ofTokens tokens).outcome = .error fault ↔
      StopsAtSigns tokens fault ∨ StopsAtProducts tokens fault ∨ StopsAtSums tokens fault := by
  simp only [ofTokens_eq, Traced.outcome_bind, Except.bind_eq_error, StopsAtSigns, StopsAtProducts, StopsAtSums]
  constructor
  · intro h
    rcases h with signs | ⟨binary, signs, products | ⟨sums, products, fold⟩⟩
    · exact .inl signs
    · exact .inr (.inl ⟨binary, signs, products⟩)
    · exact .inr (.inr ⟨binary, sums, signs, products, fold⟩)
  · intro h
    rcases h with signs | ⟨binary, signs, products⟩ | ⟨binary, sums, signs, products, fold⟩
    · exact .inl signs
    · exact .inr ⟨binary, signs, .inl products⟩
    · exact .inr ⟨binary, signs, .inr ⟨sums, products, fold⟩⟩

theorem error?_signs (tokens : List Token) :
    (Signs.resolve tokens).outcome.error? =
      ((views none tokens).findSome? View.signFault?).map SignFault.fault := by
  rw [View.findSome?_eq_locate 0, Option.map_map, Signs.outcome_resolve, ← Signs.outcome_scan 0]
  exact (Signs.scan_locate none rfl).1

theorem error?_products {tokens binary : List Token} (signs : (Signs.resolve tokens).outcome = .ok binary) :
    (Products.resolve binary).outcome.error? =
      ((views none tokens).findSome? View.productFault?).map .incompleteProduct := by
  rw [Signs.outcome_resolve] at signs
  have settled : Settled true (none : Option Float).isSome binary := Signs.settled_quiet signs false
  rw [Products.outcome_resolve, Products.error?_quiet settled, findSome?_productFault, Option.isSome_none,
    ← Signs.roles_quiet signs false fun _ => rfl]
  rfl

theorem error?_sums {tokens binary sums : List Token} (signs : (Signs.resolve tokens).outcome = .ok binary)
    (products : (Products.resolve binary).outcome = .ok sums) :
    (Sums.resolve sums).outcome.error? =
      Sums.fault? ((views none tokens).findSome? View.sumFault?) (tokens.all Token.isPlus) (crowding tokens) := by
  rw [Signs.outcome_resolve] at signs
  rw [Products.outcome_resolve] at products
  have binarySettled : Settled true (none : Option Float).isSome binary := Signs.settled_quiet signs false
  have settled : Settled false (none : Option Float).isSome sums :=
    Products.settled_quiet binarySettled products false
  have same : (roles false tokens).filter Role.outlivesProducts = (roles false sums).filter Role.outlivesProducts := by
    rw [← Products.roles_quiet products false, Token.release_none, ← Signs.roles_quiet signs false fun _ => rfl,
      Token.release_none]
  have nothing : sums.isEmpty = tokens.all Token.isPlus := by
    rw [(Signs.lead_quiet signs).2, Products.allPlus_quiet products]
    obtain rfl | ⟨value, rest, rfl⟩ := settled.start <;> rfl
  rw [Sums.outcome_resolve, Sums.error?_fold settled, findSome?_sumFault, crowding_eq_countP, Nat.zero_add,
    ← Role.findSome?_outlives (roles false tokens), ← Role.countP_outlives (roles false tokens), same,
    Role.findSome?_outlives, Role.countP_outlives, ← nothing, Option.isSome_none]
  rfl

theorem stopsAtSigns_iff {tokens : List Token} {fault : Fault} :
    StopsAtSigns tokens fault ↔ ∃ i sign, View.First View.signFault? tokens i sign ∧ fault = sign.fault := by
  rw [StopsAtSigns, ← Except.error?_eq_some, error?_signs, Option.map_eq_some_iff]
  constructor
  · intro h
    obtain ⟨sign, found, rfl⟩ := h
    obtain ⟨i, first⟩ := View.findSome?_eq_first.mp found
    exact ⟨i, sign, first, rfl⟩
  · intro h
    obtain ⟨i, sign, first, rfl⟩ := h
    exact ⟨sign, View.findSome?_eq_first.mpr ⟨i, first⟩, rfl⟩

theorem signs_ok_iff {tokens : List Token} :
    (∃ binary, (Signs.resolve tokens).outcome = .ok binary) ↔ View.Nowhere View.signFault? tokens := by
  rw [← Except.error?_eq_none, error?_signs, Option.map_eq_none_iff, View.findSome?_eq_nowhere]

theorem stopsAtProducts_iff {tokens : List Token} {fault : Fault} :
    StopsAtProducts tokens fault ↔ View.Nowhere View.signFault? tokens ∧
      ∃ i op, View.First View.productFault? tokens i op ∧ fault = .incompleteProduct op := by
  rw [StopsAtProducts, ← signs_ok_iff]
  constructor
  · intro h
    obtain ⟨binary, signs, products⟩ := h
    rw [← Except.error?_eq_some, error?_products signs, Option.map_eq_some_iff] at products
    obtain ⟨op, found, rfl⟩ := products
    obtain ⟨i, first⟩ := View.findSome?_eq_first.mp found
    exact ⟨⟨binary, signs⟩, i, op, first, rfl⟩
  · intro h
    obtain ⟨⟨binary, signs⟩, i, op, first, rfl⟩ := h
    refine ⟨binary, signs, Except.error?_eq_some.mp ?_⟩
    rw [error?_products signs, View.findSome?_eq_first.mpr ⟨i, first⟩, Option.map_some]

theorem products_ok_iff {tokens : List Token} :
    (∃ binary sums, (Signs.resolve tokens).outcome = .ok binary ∧ (Products.resolve binary).outcome = .ok sums) ↔
      View.Nowhere View.signFault? tokens ∧ View.Nowhere View.productFault? tokens := by
  rw [← signs_ok_iff, ← View.findSome?_eq_nowhere]
  constructor
  · intro h
    obtain ⟨binary, sums, signs, products⟩ := h
    have found := error?_products signs
    rw [products, Except.error?_ok] at found
    exact ⟨⟨binary, signs⟩, Option.map_eq_none_iff.mp found.symm⟩
  · intro h
    obtain ⟨⟨binary, signs⟩, nowhere⟩ := h
    obtain ⟨sums, products⟩ : ∃ sums, (Products.resolve binary).outcome = .ok sums := by
      rw [← Except.error?_eq_none, error?_products signs, nowhere, Option.map_none]
    exact ⟨binary, sums, signs, products⟩

/-- What the third stage makes of an input on which the first two stages succeed. -/
theorem fault?_iff {tokens : List Token} {fault : Fault} :
    Sums.fault? ((views none tokens).findSome? View.sumFault?) (tokens.all Token.isPlus) (crowding tokens) = some fault ↔
      (∃ i op, View.First View.sumFault? tokens i op ∧ fault = .incompleteSum op) ∨
        View.Nowhere View.sumFault? tokens ∧
          (tokens.all Token.isPlus = true ∧ fault = .empty ∨
            tokens.all Token.isPlus = false ∧ 0 < crowding tokens ∧ fault = .unconnected (crowding tokens + 1)) := by
  rw [Sums.fault?_eq_some, View.findSome?_eq_nowhere, exists_comm]
  simp only [View.findSome?_eq_first, exists_and_right]

theorem stopsAtSums_iff {tokens : List Token} {fault : Fault} :
    StopsAtSums tokens fault ↔ View.Nowhere View.signFault? tokens ∧ View.Nowhere View.productFault? tokens ∧
      Sums.fault? ((views none tokens).findSome? View.sumFault?) (tokens.all Token.isPlus) (crowding tokens) =
        some fault := by
  rw [← and_assoc, ← products_ok_iff]
  constructor
  · intro h
    obtain ⟨binary, sums, signs, products, fold⟩ := h
    exact ⟨⟨binary, sums, signs, products⟩, error?_sums signs products ▸ Except.error?_eq_some.mpr fold⟩
  · intro h
    obtain ⟨⟨binary, sums, signs, products⟩, found⟩ := h
    exact ⟨binary, sums, signs, products, Except.error?_eq_some.mp (error?_sums signs products ▸ found)⟩

theorem ok_iff_nowhere {tokens : List Token} :
    (∃ value, (ofTokens tokens).outcome = .ok value) ↔
      View.Nowhere View.signFault? tokens ∧ View.Nowhere View.productFault? tokens ∧
        View.Nowhere View.sumFault? tokens ∧ tokens.all Token.isPlus = false ∧ crowding tokens = 0 := by
  rw [← @View.findSome?_eq_nowhere _ View.sumFault?, ← Sums.fault?_eq_none, ← and_assoc, ← products_ok_iff]
  constructor
  · intro h
    obtain ⟨value, run⟩ := h
    obtain ⟨binary, signs, rest⟩ := Except.bind_eq_ok.mp (by simpa only [ofTokens_eq, Traced.outcome_bind] using run)
    obtain ⟨sums, products, fold⟩ := Except.bind_eq_ok.mp rest
    exact ⟨⟨binary, sums, signs, products⟩, error?_sums signs products ▸ Except.error?_eq_none.mpr ⟨value, fold⟩⟩
  · intro h
    obtain ⟨⟨binary, sums, signs, products⟩, nothing⟩ := h
    obtain ⟨value, fold⟩ := Except.error?_eq_none.mp (error?_sums signs products ▸ nothing)
    exact ⟨value, by simp only [ofTokens_eq, Traced.outcome_bind, signs, products, fold, Except.bind]⟩

/-- Where the first stage stops, and what it tells. -/
theorem diagnostics_of_first {tokens : List Token} {i : Nat} {sign : SignFault}
    (first : View.First View.signFault? tokens i sign) : (ofTokens tokens).diagnostics = [sign.diagnostic i] := by
  have stops : (Signs.resolve tokens).outcome = .error sign.fault := stopsAtSigns_iff.mpr ⟨i, sign, first, rfl⟩
  have tells : (Signs.scan 0 none tokens).diagnostics = [sign.diagnostic i] := by
    rw [(Signs.scan_locate none rfl).2, View.locate_eq_first.mpr first]
    rfl
  rw [ofTokens_eq, Traced.diagnostics_bind_error stops, Signs.resolve_eq, Traced.diagnostics_bind_ok rfl, tells,
    Traced.diagnostics_tell, List.nil_append]

/-- The fault of a list of tokens, the stage that finds it and what is reported of it, told from the tokens and their
neighbours alone. -/
theorem faults_from_neighbours (tokens : List Token) :
    (∀ fault, (ofTokens tokens).outcome = .error fault ↔
        StopsAtSigns tokens fault ∨ StopsAtProducts tokens fault ∨ StopsAtSums tokens fault) ∧
      (∀ fault, StopsAtSigns tokens fault ↔
        ∃ i sign, View.First View.signFault? tokens i sign ∧ fault = sign.fault ∧
          fault.report = ⟨.misplacedOperator, sign.detail⟩ ∧ (ofTokens tokens).diagnostics = [sign.diagnostic i]) ∧
      (∀ fault, StopsAtProducts tokens fault ↔ View.Nowhere View.signFault? tokens ∧
        ∃ i op, View.First View.productFault? tokens i op ∧ fault = .incompleteProduct op ∧
          fault.report = ⟨.misplacedOperator, Fault.cited op.symbol ++ " needs a number on both sides"⟩) ∧
      (∀ fault, StopsAtSums tokens fault ↔
        View.Nowhere View.signFault? tokens ∧ View.Nowhere View.productFault? tokens ∧
          ((∃ i op, View.First View.sumFault? tokens i op ∧ fault = .incompleteSum op ∧
              fault.report = ⟨.unknown, Fault.cited op.symbol ++ " needs a number on both sides"⟩) ∨
            View.Nowhere View.sumFault? tokens ∧
              (tokens.all Token.isPlus = true ∧ fault = .empty ∧ fault.report = ⟨.unknown, "empty expression"⟩ ∨
                tokens.all Token.isPlus = false ∧ 0 < crowding tokens ∧ fault = .unconnected (crowding tokens + 1) ∧
                  fault.report = ⟨.unknown, Text.natural (crowding tokens + 1) ++
                    " values left without operators between them"⟩))) ∧
      ((∃ value, (ofTokens tokens).outcome = .ok value) ↔
        View.Nowhere View.signFault? tokens ∧ View.Nowhere View.productFault? tokens ∧
          View.Nowhere View.sumFault? tokens ∧ tokens.all Token.isPlus = false ∧ crowding tokens = 0) := by
  refine ⟨fun fault => error_iff_stops, fun fault => ?signs, fun fault => ?products, fun fault => ?sums, ?success⟩
  case signs =>
    rw [stopsAtSigns_iff]
    constructor
    · intro h
      obtain ⟨i, sign, first, rfl⟩ := h
      exact ⟨i, sign, first, rfl, sign.report_fault, diagnostics_of_first first⟩
    · intro h
      obtain ⟨i, sign, first, same, -⟩ := h
      exact ⟨i, sign, first, same⟩
  case products =>
    rw [stopsAtProducts_iff]
    exact and_congr_right fun _ => exists₂_congr fun i op => and_congr_right fun _ => Fault.eq_and_report rfl
  case sums =>
    rw [stopsAtSums_iff, fault?_iff]
    refine and_congr_right fun _ => and_congr_right fun _ =>
      or_congr ?unfinished (and_congr_right fun _ => or_congr ?nothing ?unconnected)
    case unfinished => exact exists₂_congr fun i op => and_congr_right fun _ => Fault.eq_and_report rfl
    case nothing => exact and_congr_right fun _ => Fault.eq_and_report rfl
    case unconnected => exact and_congr_right fun _ => and_congr_right fun _ => Fault.eq_and_report rfl
  case success => exact ok_iff_nowhere

end Evaluation

end Reckoner
