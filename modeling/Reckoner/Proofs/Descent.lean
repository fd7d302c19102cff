import Reckoner.Proofs.Arithmetic
import Reckoner.Signs

/-! # The loop of a factorial

The rounds of a factorial as a loop without any bound on their number. It ends for every double after at most 170
multiplications: up to 171 the factors run out, and from there on the product grows at least as fast as that of 171, which
becomes infinite. Leaving the loop when the product is settled never changes the value.
-/

namespace Reckoner.Factorial

open Binary64

/-- How the loop goes on from a round, with the number of its multiplications and what it leaves behind. -/
inductive Descends : Round → (multiplications : ℕ) → Descent → Prop where
  /-- No factor is left. -/
  | last {round : Round} (isLast : round.isLast = true) : Descends round 0 ⟨[round], round.product⟩
  /-- The product can no longer change. -/
  | settled {round : Round} (more : round.isLast = false) (isSettled : round.next.isSettled = true) :
      Descends round 1 ⟨[round], round.next.product⟩
  | further {round : Round} {multiplications : ℕ} {rest : Descent} (more : round.isLast = false)
      (unsettled : round.next.isSettled = false) (descends : Descends round.next multiplications rest) :
      Descends round (multiplications + 1) ⟨round :: rest.rounds, rest.value⟩

namespace Descends

variable {round : Round} {k : ℕ} {result : Descent}

/-- The loop takes one course only. -/
theorem unique {k' : ℕ} {result' : Descent} (h : Descends round k result) (h' : Descends round k' result') :
    k' = k ∧ result' = result := by
  induction h generalizing k' result' with
  | last isLast =>
      cases h' with
      | last => exact ⟨rfl, rfl⟩
      | settled more | further more => cases isLast.symm.trans more
  | settled more isSettled =>
      cases h' with
      | last isLast => cases isLast.symm.trans more
      | settled => exact ⟨rfl, rfl⟩
      | further _ unsettled => cases isSettled.symm.trans unsettled
  | further more unsettled _ ih =>
      cases h' with
      | last isLast => cases isLast.symm.trans more
      | settled _ isSettled => cases isSettled.symm.trans unsettled
      | further _ _ descends =>
          obtain ⟨rfl, rfl⟩ := ih descends
          exact ⟨rfl, rfl⟩

/-- Fuel for one round more than there are multiplications is enough. -/
theorem descend_eq (h : Descends round k result) {fuel : ℕ} (enough : k < fuel) : descend fuel round = result := by
  induction h generalizing fuel with
  | last isLast =>
      obtain ⟨fuel, rfl⟩ := Nat.exists_eq_add_one.mpr enough
      simp [descend, isLast]
  | settled more isSettled =>
      obtain ⟨fuel, rfl⟩ := Nat.exists_eq_add_one.mpr (Nat.zero_lt_one.trans enough)
      simp [descend, more, isSettled]
  | further more unsettled _ ih =>
      obtain ⟨fuel, rfl⟩ := Nat.exists_eq_add_one.mpr (Nat.zero_lt_of_lt enough)
      simp [descend, more, unsettled, ih (Nat.lt_of_succ_lt_succ enough)]

/-- The fuel of a factorial never runs out. -/
theorem enough {n : Float} (h : Descends (.first n) k result) (le : k ≤ 170) : Descends (.first n) k (descent n) := by
  have same : descent n = result := h.descend_eq (Nat.lt_succ_of_le le)
  rwa [same]

/-- Every round but the last has a multiplication. -/
theorem length_rounds_le (h : Descends round k result) : result.rounds.length ≤ k + 1 := by
  induction h with
  | last => exact le_rfl
  | settled => exact Nat.le_succ 1
  | further _ _ _ ih => exact Nat.succ_le_succ ih

end Descends

theorem leastFactor_eq : leastFactor = signed .positive (one + Binary64.hidden / 2) := by
  decide +kernel

theorem isLast_eq_false {round : Round} (number : round.factor.isNaN = false) :
    round.isLast = false ↔ leastFactor ≤ round.factor := by
  rw [Round.isLast, decide_eq_false_iff_not, leastFactor_eq, lt_signed_iff (by decide) (by decide) number, not_not]

theorem one_le_of_counts {x : Float} (counts : leastFactor ≤ x) : 1 ≤ x := by
  rw [leastFactor_eq, signed_le_iff (by decide) (by decide)] at counts
  obtain ⟨m, le, bound, rfl⟩ := counts
  exact one_le_iff.mpr ⟨m, by omega, bound, rfl⟩

theorem one_le_next {round : Round} (grown : 1 ≤ round.product) (counts : leastFactor ≤ round.factor) :
    1 ≤ round.next.product := by
  have unit : (1 : Float) * 1 = 1 := by decide +kernel
  have := mul_le_mul_of_one_le (by decide +kernel) (by decide +kernel) grown (one_le_of_counts counts)
  rwa [unit] at this

/-- A product that is at least one is settled once it is infinite. -/
theorem isSettled_iff {round : Round} (grown : 1 ≤ round.product) :
    round.isSettled = true ↔ round.product = Float.inf := by
  obtain ⟨m, atLeast, bound, same⟩ := one_le_iff.mp grown
  rw [Round.isSettled, same, isNaN_signed .positive bound, isInf_signed .positive bound, Bool.or_false, decide_eq_true_iff]
  constructor
  · rintro rfl
    rfl
  · intro infinite
    have := congrArg Float.isInf infinite
    rw [isInf_signed .positive bound, inf_eq, isInf_signed .positive le_rfl] at this
    simpa using this

/-- Up to `k + 1` there are at most `k` factors that count. -/
theorem descends_of_le (k : ℕ) (small : k ≤ 170) {round : Round} (atMost : round.factor ≤ nearest (k + 1 : ℕ)) :
    ∃ j ≤ k, ∃ result, Descends round j result := by
  induction k generalizing round with
  | zero =>
      have isLast : round.isLast = true := by
        by_contra more
        have counts := (isLast_eq_false (isNaN_of_le atMost).1).mp (Bool.not_eq_true _ ▸ more)
        rw [leastFactor_eq] at counts
        have tooLarge := signed_le_trans (by decide) (by decide) counts atMost
        exact absurd tooLarge (by decide +kernel)
      exact ⟨0, le_rfl, _, .last isLast⟩
  | succ k ih =>
      cases more : round.isLast with
      | true => exact ⟨0, Nat.zero_le _, _, .last more⟩
      | false =>
          cases settled : round.next.isSettled with
          | true => exact ⟨1, by omega, _, .settled more settled⟩
          | false =>
              have counts := (isLast_eq_false (isNaN_of_le atMost).1).mp more
              have next : round.next.factor ≤ nearest (k + 1 : ℕ) := by
                rw [← nearest_sub_one (by simp only [Binary64.hidden]; omega)]
                exact sub_one_mono (one_le_of_counts counts) atMost
              obtain ⟨j, le, result, descends⟩ := ih (by omega) next
              exact ⟨j + 1, by omega, _, .further more settled descends⟩

theorem counts_of_le {x y : Float} (counts : leastFactor ≤ x) (le : x ≤ y) : leastFactor ≤ y := by
  rw [leastFactor_eq] at *
  exact signed_le_trans (by decide) (by decide) counts le

/-- A round with a factor and a product that are no greater than those of another one. -/
structure Round.Below (slow round : Round) : Prop where
  factor : slow.factor ≤ round.factor
  product : slow.product ≤ round.product

theorem Round.Below.goesOn {slow round : Round} (below : slow.Below round) (more : slow.isLast = false) :
    leastFactor ≤ slow.factor ∧ round.isLast = false := by
  have ⟨number, number'⟩ := isNaN_of_le below.factor
  have counts := (isLast_eq_false number).mp more
  exact ⟨counts, (isLast_eq_false number').mpr (counts_of_le counts below.factor)⟩

theorem Round.Below.next {slow round : Round} (below : slow.Below round) (counts : leastFactor ≤ slow.factor)
    (grown : 1 ≤ slow.product) : slow.next.Below round.next :=
  ⟨sub_one_mono (one_le_of_counts counts) below.factor,
    mul_le_mul_of_one_le grown (one_le_of_counts counts) below.product below.factor⟩

/-- A run with greater factors and a greater product comes to an infinite product no later. -/
theorem Descends.faster {slow round : Round} {k : ℕ} {result : Descent} (h : Descends slow k result)
    (infinite : result.value = Float.inf) (unsettled : slow.isSettled = false) (grown : 1 ≤ slow.product)
    (below : slow.Below round) : ∃ j ≤ k, ∃ result', Descends round j result' := by
  induction h generalizing round with
  | last => cases unsettled.symm.trans ((isSettled_iff grown).mpr infinite)
  | @settled slow more =>
      obtain ⟨counts, more'⟩ := below.goesOn more
      have full : round.next.product = Float.inf := inf_le_iff.mp (infinite ▸ (below.next counts grown).product)
      have grown' : 1 ≤ round.next.product := by
        rw [full]
        decide +kernel
      exact ⟨1, le_rfl, _, .settled more' ((isSettled_iff grown').mpr full)⟩
  | @further slow k _ more unsettled' _ ih =>
      obtain ⟨counts, more'⟩ := below.goesOn more
      cases settled : round.next.isSettled with
      | true => exact ⟨1, by omega, _, .settled more' settled⟩
      | false =>
          obtain ⟨j, le, result', descends⟩ :=
            ih infinite unsettled' (one_le_next grown counts) (below.next counts grown)
          exact ⟨j + 1, by omega, _, .further more' settled descends⟩

/-- The run from 171 up to infinity. -/
theorem descends_171 : ∃ k ≤ 170, Descends (.first 171) k (descent 171) ∧ (descent 171).value = Float.inf := by
  obtain ⟨k, le, result, descends⟩ := @descends_of_le 170 le_rfl (.first 171) (by decide +kernel)
  exact ⟨k, le, descends.enough le, by decide +kernel⟩

theorem exists_descends (n : Float) : ∃ k ≤ 170, ∃ result, Descends (.first n) k result := by
  cases isNumber : n.isNaN with
  | true =>
      rw [Float.isNaN_eq_decide_eq_nan, decide_eq_true_iff] at isNumber
      subst isNumber
      exact ⟨1, by decide, _, .settled (by decide +kernel) (by decide +kernel)⟩
  | false =>
      by_cases large : 171 ≤ n
      · obtain ⟨k, le, descends, infinite⟩ := descends_171
        have same : (Round.first n).product = 1 := rfl
        have below : (Round.first 171).Below (.first n) := ⟨large, by rw [same]; decide +kernel⟩
        obtain ⟨j, le', result, descends⟩ := descends.faster infinite (by decide +kernel) (by decide +kernel) below
        exact ⟨j, le'.trans le, result, descends⟩
      · have bound : (171 : Float) = nearest (171 : ℕ) := by decide +kernel
        rw [bound, nearest_eq] at large
        have less := (lt_signed_iff (number_le _) (by decide +kernel) isNumber).mpr large
        rw [← nearest_eq] at less
        exact descends_of_le 170 le_rfl (Binary64.le_of_lt less)

theorem descends_descent (n : Float) : ∃ k ≤ 170, Descends (.first n) k (descent n) := by
  obtain ⟨k, le, result, descends⟩ := exists_descends n
  exact ⟨k, le, descends.enough le⟩

/-- The loop of a factorial ends for every double, the NaN and the infinities included. It takes at most 170 multiplications
and reports at most 171 rounds. -/
theorem terminates (n : Float) : ∃ multiplications ≤ 170, Descends (.first n) multiplications (descent n) ∧
    (∀ k result, Descends (.first n) k result → k = multiplications ∧ result = descent n) ∧
    (Signs.factorial n).outcome = .ok (descent n).value ∧
    (Signs.factorial n).records = (descent n).rounds.map (fun round => .step (.factorial n round)) ∧
    (Signs.factorial n).records.length ≤ 171 := by
  obtain ⟨k, le, descends⟩ := descends_descent n
  refine ⟨k, le, descends, fun _ _ => descends.unique, rfl, Signs.records_factorial n, ?_⟩
  rw [Signs.records_factorial, List.length_map]
  exact descends.length_rounds_le.trans (Nat.succ_le_succ le)

/-- The loop without an early exit, from a round on: as long as the factor counts, it goes into the product. -/
inductive Plain : Round → Float → Prop where
  | stop {round : Round} (enough : ¬leastFactor ≤ round.factor) : Plain round round.product
  | step {round : Round} {result : Float} (counts : leastFactor ≤ round.factor) (rest : Plain round.next result) :
      Plain round result

namespace Plain

variable {round : Round} {result : Float}

/-- An infinite product stays infinite, for all factors that follow are positive. -/
theorem infinite (h : Plain round result) (full : round.product = Float.inf) : result = Float.inf := by
  induction h with
  | stop => exact full
  | step counts _ ih =>
      apply ih
      rw [Round.next, full]
      exact inf_mul (one_le_of_counts counts)

/-- The loop never ends on a factor that does not change. -/
theorem factor_changes (h : Plain round result) (counts : leastFactor ≤ round.factor) :
    round.factor - 1 ≠ round.factor := by
  induction h with
  | stop enough => exact (enough counts).elim
  | step _ _ ih =>
      intro fixed
      rw [Round.next] at ih
      dsimp only at ih
      rw [fixed] at ih
      exact ih counts fixed

end Plain

/-- Without an early exit the loop comes to the same value, or it never ends and the value is infinite. -/
theorem Descends.plain {round : Round} {k : ℕ} {result : Descent} (h : Descends round k result)
    (grown : 1 ≤ round.product) (number : round.factor.isNaN = false) :
    (∀ value, Plain round value → result.value = value) ∧ ((∀ value, ¬Plain round value) → result.value = Float.inf) := by
  induction h with
  | @last round isLast =>
      have enough : ¬leastFactor ≤ round.factor := by
        rw [← isLast_eq_false number, isLast]
        decide
      refine ⟨fun value plain => ?_, fun diverges => (diverges _ (.stop enough)).elim⟩
      cases plain with
      | stop => rfl
      | step counts => exact (enough counts).elim
  | @settled round more isSettled =>
      have counts := (isLast_eq_false number).mp more
      have full := (isSettled_iff (one_le_next grown counts)).mp isSettled
      refine ⟨fun value plain => ?_, fun _ => full⟩
      cases plain with
      | stop enough => exact (enough counts).elim
      | step _ rest => exact full.trans (rest.infinite full).symm
  | @further round _ rest more _ _ ih =>
      have counts := (isLast_eq_false number).mp more
      have number' : round.next.factor.isNaN = false :=
        (isNaN_of_le (sub_one_mono (by decide +kernel) (one_le_of_counts counts))).2
      obtain ⟨agrees, diverges⟩ := ih (one_le_next grown counts) number'
      refine ⟨fun value plain => ?_, fun never => diverges fun value plain => never value (.step counts plain)⟩
      cases plain with
      | stop enough => exact (enough counts).elim
      | step _ plain => exact agrees value plain

/-- The early exit does not change the value of a factorial. It is that of the loop without one, or infinity where that loop
never ends. The factorial of the NaN is the NaN. -/
theorem value_plain :
    (∀ n : Float, n.isNaN = false →
      (∀ result, Plain (.first n) result → value n = result) ∧
      ((∀ result, ¬Plain (.first n) result) → value n = Float.inf)) ∧
    ∀ n : Float, n.isNaN = true → (value n).isNaN = true := by
  constructor
  · intro n number
    obtain ⟨k, -, descends⟩ := descends_descent n
    have grown : (1 : Float) ≤ 1 := by decide +kernel
    exact descends.plain grown number
  · intro n isNaN
    rw [Float.isNaN_eq_decide_eq_nan, decide_eq_true_iff] at isNaN
    subst isNaN
    decide +kernel

/-- The loop ends for 5, but neither for infinity nor for a factor that 1 does not change. -/
theorem value_of_five_and_infinite : value 5 = 120 ∧ value 1e300 = Float.inf ∧ value Float.inf = Float.inf ∧
    (value Float.nan).isNaN = true := by
  have ends : Plain (.first 5) 120 := by
    have last : (Round.first 5).next.next.next.next.product = 120 := by decide +kernel
    rw [← last]
    iterate 4 refine .step (by decide +kernel) ?_
    exact .stop (by decide +kernel)
  have diverges (n : Float) (counts : leastFactor ≤ n) (fixed : n - 1 = n) (result : Float) : ¬Plain (.first n) result :=
    fun plain => plain.factor_changes counts fixed
  exact ⟨(value_plain.1 5 (by decide +kernel)).1 120 ends,
    (value_plain.1 1e300 (by decide +kernel)).2 (diverges 1e300 (by decide +kernel) (by decide +kernel)),
    (value_plain.1 Float.inf (by decide +kernel)).2 (diverges Float.inf (by decide +kernel) (by decide +kernel)),
    value_plain.2 Float.nan (by decide +kernel)⟩

end Reckoner.Factorial
