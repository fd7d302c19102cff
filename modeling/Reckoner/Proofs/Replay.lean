import Reckoner.Proofs.Backends
import Reckoner.Proofs.Descent
import Reckoner.Proofs.Splitting

/-! # Factorials replayed from their trace

The records of a factorial are the factors and products of its loop, round by round, so a reader of the trace can repeat
the computation. The first stage reports the factorials in the order of their symbols, each with the operand that ends
right before it.
-/

namespace Reckoner

open Token (EndsOperand)

namespace Factorial

/-- How a loop goes on from its first round to the one that it leaves. -/
structure Replays (first : Round) (last : ℕ) (result : Descent) : Prop where
  rounds : result.rounds = (List.range (last + 1)).map fun k => Round.next^[k] first
  goesOn : ∀ k < last, (Round.next^[k] first).isLast = false
  unsettled : ∀ k < last, (Round.next^[k + 1] first).isSettled = false
  exhausted : (Round.next^[last] first).isLast = true → result.value = (Round.next^[last] first).product
  settled : (Round.next^[last] first).isLast = false →
    result.value = (Round.next^[last + 1] first).product ∧ (Round.next^[last + 1] first).isSettled = true

theorem Replays.further {round : Round} {last : ℕ} {rest : Descent} (more : round.isLast = false)
    (unsettled : round.next.isSettled = false) (replays : Replays round.next last rest) :
    Replays round (last + 1) ⟨round :: rest.rounds, rest.value⟩ where
  rounds := by
    rw [List.range_succ_eq_map, List.map_cons, List.map_map, replays.rounds]
    rfl
  goesOn := by
    intro k bound
    cases k with
    | zero => exact more
    | succ k => exact replays.goesOn k (Nat.lt_of_succ_lt_succ bound)
  unsettled := by
    intro k bound
    cases k with
    | zero => exact unsettled
    | succ k => exact replays.unsettled k (Nat.lt_of_succ_lt_succ bound)
  exhausted := replays.exhausted
  settled := replays.settled

theorem Descends.replays {round : Round} {k : ℕ} {result : Descent} (h : Descends round k result) :
    ∃ last, Replays round last result := by
  induction h with
  | last isLast =>
      refine ⟨0, rfl, nofun, nofun, fun _ => rfl, fun more => ?_⟩
      cases isLast.symm.trans more
  | settled more isSettled =>
      refine ⟨0, rfl, nofun, nofun, fun isLast => ?_, fun _ => ⟨rfl, isSettled⟩⟩
      cases isLast.symm.trans more
  | further more unsettled _ ih =>
      obtain ⟨last, replays⟩ := ih
      exact ⟨last + 1, replays.further more unsettled⟩

end Factorial

/-- A trace that tells the factors and the products of a factorial up to the round that the loop leaves, and the value that
follows from them. -/
structure TellsFactorial (n : Float) (records : List Record) (value : Float) (last : ℕ) (factor product : ℕ → Float) :
    Prop where
  start : factor 0 = n ∧ product 0 = 1
  next : ∀ k, factor (k + 1) = factor k - 1 ∧ product (k + 1) = product k * factor k
  rounds : records = (List.range (last + 1)).map fun k => .step (.factorial n ⟨factor k, product k⟩)
  lines : records.map Record.rendering = (List.range (last + 1)).map fun k =>
    "factorial " ++ Numeral.write n ++ " - loop current=" ++ Numeral.write (factor k) ++
      " result=" ++ Numeral.write (product k)
  counts : ∀ k < last, ¬factor k < 1.5
  unsettled : ∀ k, 1 ≤ k → k ≤ last → (product k).isInf = false ∧ (product k).isNaN = false
  exhausted : factor last < 1.5 → value = product last
  settled : ¬factor last < 1.5 → value = product last * factor last ∧ (value.isInf || value.isNaN) = true

namespace Signs

theorem tellsFactorial (n : Float) : ∃ last factor product,
    TellsFactorial n (factorial n).records (Factorial.value n) last factor product := by
  obtain ⟨k, -, descends⟩ := Factorial.descends_descent n
  obtain ⟨last, replays⟩ := descends.replays
  refine ⟨last, fun k => (Factorial.Round.next^[k] (.first n)).factor,
    fun k => (Factorial.Round.next^[k] (.first n)).product, ?_⟩
  have rounds : (factorial n).records = (List.range (last + 1)).map fun k =>
      .step (.factorial n (Factorial.Round.next^[k] (.first n))) := by
    rw [records_factorial, replays.rounds, List.map_map]
    rfl
  have next (k : ℕ) : Factorial.Round.next^[k + 1] (.first n) = (Factorial.Round.next^[k] (.first n)).next :=
    Function.iterate_succ_apply' _ _ _
  exact {
    start := ⟨rfl, rfl⟩
    next := by
      intro k
      rw [next]
      exact ⟨rfl, rfl⟩
    rounds := rounds
    lines := by
      rw [rounds, List.map_map]
      rfl
    counts := by
      intro k bound
      exact of_decide_eq_false (replays.goesOn k bound)
    unsettled := by
      intro k positive bound
      obtain ⟨k, rfl⟩ := Nat.exists_eq_add_one.mpr positive
      simpa [Factorial.Round.isSettled] using replays.unsettled k bound
    exhausted := by
      intro less
      exact replays.exhausted (decide_eq_true less)
    settled := by
      intro counts
      obtain ⟨value, settled⟩ := replays.settled (decide_eq_false counts)
      rw [Factorial.Round.isSettled, ← value] at settled
      rw [next] at value
      exact ⟨value, settled⟩ }

end Signs

namespace Token

def isFactorial : Token → Bool
  | operator .factorial => true
  | _ => false

/-- Tokens that end in an operand with its sign and its factorials, and its value. -/
inductive EndsIn : List Token → Float → Prop where
  /-- A `-` before the operand joins terms, if there is one. -/
  | operand {before : List Token} (value : Float)
      (unsigned : ∀ earlier, before = earlier ++ [.operator (.sum .subtract)] → EndsOperand earlier) :
      EndsIn (before ++ [.operand value]) value
  /-- A `-` after no operand is a sign. -/
  | negated {before : List Token} (value : Float) (isSign : ¬EndsOperand before) :
      EndsIn (before ++ [.operator (.sum .subtract), .operand value]) (-value)
  /-- One more factorial, of the value so far. -/
  | factorial {before : List Token} {value : Float} (ends : EndsIn before value) :
      EndsIn (before ++ [.operator .factorial]) (Factorial.value value)

namespace EndsIn

variable {before : List Token} {value other : Float}

theorem of_operand (h : EndsIn (before ++ [.operand value]) other) :
    (∀ earlier, before = earlier ++ [.operator (.sum .subtract)] → EndsOperand earlier) ∧ other = value ∨
      (∃ earlier, before = earlier ++ [.operator (.sum .subtract)] ∧ ¬EndsOperand earlier) ∧ other = -value := by
  generalize same : before ++ [.operand value] = tokens at h
  cases h with
  | operand _ unsigned =>
      obtain ⟨rfl, last⟩ := List.append_inj' same rfl
      cases last
      exact .inl ⟨unsigned, rfl⟩
  | @negated earlier _ isSign =>
      obtain ⟨rfl, last⟩ := List.append_inj' (same.trans (List.append_cons earlier _ _)) rfl
      cases last
      exact .inr ⟨⟨earlier, rfl, isSign⟩, rfl⟩
  | factorial =>
      obtain ⟨-, last⟩ := List.append_inj' same rfl
      cases last

theorem of_factorial (h : EndsIn (before ++ [.operator .factorial]) other) :
    ∃ value, EndsIn before value ∧ other = Factorial.value value := by
  generalize same : before ++ [.operator .factorial] = tokens at h
  cases h with
  | operand =>
      obtain ⟨-, last⟩ := List.append_inj' same rfl
      cases last
  | @negated earlier =>
      obtain ⟨-, last⟩ := List.append_inj' (same.trans (List.append_cons earlier _ _)) rfl
      cases last
  | @factorial before value ends =>
      obtain ⟨rfl, -⟩ := List.append_inj' same rfl
      exact ⟨value, ends, rfl⟩

/-- Tokens end in one operand only. -/
theorem unique {tokens : List Token} (h : EndsIn tokens value) (h' : EndsIn tokens other) : other = value := by
  induction h generalizing other with
  | operand value unsigned =>
      obtain ⟨-, same⟩ | ⟨⟨earlier, rfl, isSign⟩, -⟩ := h'.of_operand
      · exact same
      · exact (isSign (unsigned earlier rfl)).elim
  | @negated before value isSign =>
      rw [List.append_cons] at h'
      obtain ⟨unsigned, -⟩ | ⟨-, same⟩ := h'.of_operand
      · exact (isSign (unsigned before rfl)).elim
      · exact same
  | factorial _ ih =>
      obtain ⟨value, ends, rfl⟩ := h'.of_factorial
      rw [ih ends]

end EndsIn

/-- What the first stage holds back after some tokens: the operand that they end in, if they do. -/
structure Leaves (before : List Token) (held : Option Float) : Prop where
  ends : ∀ value, held = some value → EndsIn before value
  bare : held.isSome = before.getLast?.any endsOperand
  /-- A sign is taken together with its operand. -/
  unsigned : ∀ earlier, before = earlier ++ [.operator (.sum .subtract)] → EndsOperand earlier

namespace Leaves

variable {before : List Token} {held : Option Float}

theorem endsOperand_iff (leaves : Leaves before held) : EndsOperand before ↔ held.isSome = true := by
  rw [leaves.bare, EndsOperand, Option.any_eq_true]

theorem nothing : Leaves [] none where
  ends := nofun
  bare := rfl
  unsigned := by
    intro earlier same
    cases earlier <;> cases same

theorem operand (leaves : Leaves before held) (value : Float) : Leaves (before ++ [.operand value]) (some value) where
  ends := by
    rintro _ ⟨⟩
    exact .operand value leaves.unsigned
  bare := by simp [endsOperand]
  unsigned := by simp

theorem negated (leaves : Leaves before none) (value : Float) :
    Leaves (before ++ [.operator (.sum .subtract), .operand value]) (some (-value)) where
  ends := by
    rintro _ ⟨⟩
    exact .negated value (by simp [leaves.endsOperand_iff])
  bare := by simp [endsOperand]
  unsigned := by
    intro earlier same
    have last := congrArg List.getLast? same
    simp at last

theorem factorial {value : Float} (leaves : Leaves before (some value)) :
    Leaves (before ++ [.operator .factorial]) (some (Factorial.value value)) where
  ends := by
    rintro _ ⟨⟩
    exact .factorial (leaves.ends value rfl)
  bare := by simp [endsOperand]
  unsigned := by simp

theorem sum {value : Float} (leaves : Leaves before (some value)) (op : SumOp) :
    Leaves (before ++ [.operator (.sum op)]) none where
  ends := nofun
  bare := by simp [endsOperand]
  unsigned := by
    intro earlier same
    obtain ⟨rfl, -⟩ := List.append_inj' same rfl
    exact leaves.endsOperand_iff.mpr rfl

theorem other (before : List Token) {token : Token} (noEnd : token.endsOperand = false)
    (notMinus : token ≠ .operator (.sum .subtract)) : Leaves (before ++ [token]) none where
  ends := nofun
  bare := by simp [noEnd]
  unsigned := by
    intro earlier same
    obtain ⟨-, last⟩ := List.append_inj' same rfl
    exact (notMinus (List.singleton_inj.mp last)).elim

end Leaves

end Token

namespace Signs

/-- Where the first stage stops: at the first token that lacks its operand, or at the end. -/
def stopAt (position : ℕ) (before : Option Token) (tokens : List Token) : ℕ :=
  ((View.locate View.signFault? position (views before tokens)).map Prod.fst).getD (position + tokens.length)

theorem stopAt_fine {position : ℕ} {before : Option Token} {token : Token} {rest : List Token}
    (fine : View.signFault? ⟨before, token, rest⟩ = none) :
    stopAt position before (token :: rest) = stopAt (position + 1) (some token) rest := by
  simp only [stopAt, views, View.locate, fine, List.length_cons]
  congr 1
  omega

theorem stopAt_fault {position : ℕ} {before : Option Token} {token : Token} {rest : List Token} {sign : SignFault}
    (fault : View.signFault? ⟨before, token, rest⟩ = some sign) : stopAt position before (token :: rest) = position := by
  simp only [stopAt, views, View.locate, fault, Option.map_some, Option.getD_some]

theorem le_stopAt (position : ℕ) (before : Option Token) (tokens : List Token) :
    position ≤ stopAt position before tokens := by
  unfold stopAt
  cases located : View.locate View.signFault? position (views before tokens) with
  | none => exact Nat.le_add_right _ _
  | some found =>
      obtain ⟨k, same, -⟩ := View.locate_eq_some.mp located
      simp only [Option.map_some, Option.getD_some]
      omega

/-- The factorial symbols before a position, each with its own. -/
def factorials (stop position : ℕ) (tokens : List Token) : List (Token × ℕ) :=
  (tokens.zipIdx position).filter fun place => place.1.isFactorial && place.2 < stop

/-- Records that tell, one after the other, the factorials that are computed among the tokens after others. -/
def TellsFactorials (before tokens : List Token) (records : List Record) : Prop :=
  ∃ operands, List.Forall₂ (fun place n => Token.EndsIn ((before ++ tokens).take place.2) n)
      (factorials (stopAt before.length before.getLast? tokens) before.length tokens) operands ∧
    records = operands.flatMap fun n => (factorial n).records

namespace TellsFactorials

variable {before rest : List Token} {token : Token} {records : List Record}

theorem nil (before : List Token) : TellsFactorials before [] [] :=
  ⟨[], .nil, rfl⟩

theorem fault {sign : SignFault} (fault : View.signFault? ⟨before.getLast?, token, rest⟩ = some sign) :
    TellsFactorials before (token :: rest) [] := by
  refine ⟨[], ?_, rfl⟩
  have none : factorials before.length before.length (token :: rest) = [] := by
    rw [factorials, List.filter_eq_nil_iff]
    rintro ⟨found, i⟩ member
    have least : before.length ≤ i := List.le_snd_of_mem_zipIdx member
    simp only [Bool.and_eq_true, decide_eq_true_eq]
    omega
  rw [stopAt_fault fault, none]
  exact .nil

theorem pass (tells : TellsFactorials (before ++ [token]) rest records) (other : token.isFactorial = false)
    (fine : View.signFault? ⟨before.getLast?, token, rest⟩ = none) : TellsFactorials before (token :: rest) records := by
  obtain ⟨operands, ends, rfl⟩ := tells
  refine ⟨operands, ?_, rfl⟩
  rw [stopAt_fine fine, factorials, List.zipIdx_cons, List.filter_cons_of_neg (by simp [other])]
  simpa [factorials] using ends

theorem raise {n : Float} (tells : TellsFactorials (before ++ [.operator .factorial]) rest records)
    (ends : Token.EndsIn before n) (fine : View.signFault? ⟨before.getLast?, .operator .factorial, rest⟩ = none) :
    TellsFactorials before (.operator .factorial :: rest) ((factorial n).records ++ records) := by
  obtain ⟨operands, later, rfl⟩ := tells
  refine ⟨n :: operands, ?_, rfl⟩
  have reached := le_stopAt (before.length + 1) (some (.operator .factorial)) rest
  rw [stopAt_fine fine, factorials, List.zipIdx_cons, List.filter_cons_of_pos (by simp [Token.isFactorial]; omega)]
  refine .cons (by simpa using ends) ?_
  simpa [factorials] using later

end TellsFactorials

/-- The stage tells the factorials up to the first fault, each on the operand that it holds back. -/
theorem tellsFactorials_scan {position : ℕ} {held : Option Float} {tokens before : List Token}
    (leaves : Token.Leaves before held) : TellsFactorials before tokens (scan position held tokens).records := by
  unfold scan
  fun_induction work Handler.traced position held tokens generalizing before with
  | case1 => exact .nil before
  | case2 position held value rest ih =>
      rw [Traced.records_map]
      exact (ih (leaves.operand value)).pass rfl rfl
  | case3 position value rest ih =>
      rw [Traced.records_bind, outcome_factorial, Factorial.quiet_eq_value]
      have fine : View.signFault? ⟨before.getLast?, .operator .factorial, rest⟩ = none := if_pos leaves.bare.symm
      exact (ih _ leaves.factorial).raise (leaves.ends value rfl) fine
  | case4 position rest =>
      have fault : View.signFault? ⟨before.getLast?, .operator .factorial, rest⟩ = some .factorial :=
        if_neg (Bool.eq_false_iff.mp leaves.bare.symm)
      exact .fault fault
  | case5 position value op rest ih =>
      have fine : View.signFault? ⟨before.getLast?, .operator (.sum op), rest⟩ = none := by
        cases op with
        | add => rfl
        | subtract => exact if_pos (by rw [View.afterOperand, ← leaves.bare]; rfl)
      rw [Traced.records_map]
      exact (ih (leaves.sum op)).pass rfl fine
  | case6 position rest ih =>
      have bare : Token.Leaves (before ++ [.operator (.sum .add)]) none := .other before rfl (by simp)
      exact (ih bare).pass rfl rfl
  | case7 position value rest ih =>
      have fine : View.signFault? ⟨before.getLast?, .operator (.sum .subtract), .operand value :: rest⟩ = none :=
        if_pos (Bool.or_true _)
      have signed : Token.Leaves (before ++ [.operator (.sum .subtract)] ++ [.operand value]) (some (-value)) := by
        simpa using leaves.negated value
      exact ((ih signed).pass rfl rfl).pass rfl fine
  | case8 position rest noOperand =>
      have other : rest.head?.any Token.isOperand = false := Token.isOperand_head? noOperand
      have fault : View.signFault? ⟨before.getLast?, .operator (.sum .subtract), rest⟩ = some .minus := by
        simp [View.signFault?, View.afterOperand, ← leaves.bare, other]
      exact .fault fault
  | case9 position held op rest ih =>
      have bare : Token.Leaves (before ++ [.operator (.product op)]) none := .other before rfl (by simp)
      rw [Traced.records_map]
      exact (ih bare).pass rfl rfl

theorem stopAt_cases (tokens : List Token) :
    ((∃ output, (resolve tokens).outcome = .ok output) ∧ stopAt 0 none tokens = tokens.length) ∨
      ∃ sign, View.First View.signFault? tokens (stopAt 0 none tokens) sign ∧
        (resolve tokens).outcome = .error sign.fault := by
  have stops := (@scan_locate 0 none tokens none rfl).1
  rw [outcome_scan, ← outcome_resolve] at stops
  unfold stopAt
  cases located : View.locate View.signFault? 0 (views none tokens) with
  | none =>
      rw [located] at stops
      exact .inl ⟨Except.error?_eq_none.mp stops, Nat.zero_add _⟩
  | some found =>
      obtain ⟨i, sign⟩ := found
      rw [located] at stops
      exact .inr ⟨sign, View.locate_eq_first.mp located, Except.error?_eq_some.mp stops⟩

/-- The trace of a factorial tells every factor and product of its loop, and the value follows from the last of them. The
first stage tells its factorials one after the other, in the order of their symbols, each on the operand that ends right
before it: with the sign of that operand, and after the factorials before it. -/
theorem trace_replays :
    (∀ n, ∃ last factor product,
      TellsFactorial n (factorial n).records (Factorial.value n) last factor product ∧
        (factorial n).outcome = .ok (Factorial.value n)) ∧
      ∀ tokens, ∃ stop operands,
        ((∃ output, (resolve tokens).outcome = .ok output) ∧ stop = tokens.length ∨
            ∃ sign, View.First View.signFault? tokens stop sign ∧ (resolve tokens).outcome = .error sign.fault) ∧
          List.Forall₂ (fun place n => ∀ value, Token.EndsIn (tokens.take place.2) value ↔ value = n)
            (tokens.zipIdx.filter fun place => place.1.isFactorial && place.2 < stop) operands ∧
          (resolve tokens).records =
            .stage "resolve_unary" tokens :: operands.flatMap fun n => (factorial n).records := by
  constructor
  · intro n
    obtain ⟨last, factor, product, tells⟩ := tellsFactorial n
    exact ⟨last, factor, product, tells, rfl⟩
  · intro tokens
    obtain ⟨operands, ends, records⟩ := @tellsFactorials_scan 0 none tokens [] .nothing
    have only {i : ℕ} {n : Float} (ends : Token.EndsIn (tokens.take i) n) (value : Float) :
        Token.EndsIn (tokens.take i) value ↔ value = n :=
      ⟨ends.unique, fun same => same ▸ ends⟩
    refine ⟨stopAt 0 none tokens, operands, stopAt_cases tokens, ends.imp fun _ _ => only, ?_⟩
    rw [resolve_eq, Traced.records_bind, ← records]
    rfl

end Signs

end Reckoner
