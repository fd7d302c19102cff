import Mathlib.Algebra.Order.Field.Power
import Mathlib.Data.Int.Log
import Mathlib.Data.Rat.Floor
import Mathlib.Tactic.FieldSimp
import Mathlib.Tactic.Linarith
import Mathlib.Tactic.Positivity
import Reckoner.Binary64

/-! # Rounding to the nearest double

The doubles that are not negative are counted from zero upwards. Rounding takes an exact value to the number of the double
nearest to it, never swaps two values, and leaves every double where it is.
-/

namespace Reckoner

theorem scaled_eq (base significand : Nat) (exponent : Int) :
    scaled base significand exponent = significand * (base : ℚ) ^ exponent := by
  cases exponent with
  | ofNat n => simp [scaled]
  | negSucc n => simp [scaled, Rat.mkRat_eq_div, zpow_negSucc, div_eq_mul_inv]

/-- An integer at most half a unit away, and an even one if it is half a unit away. -/
structure IsRounded (value : ℚ) (n : ℕ) : Prop where
  below : n ≤ value + 1 / 2
  above : value ≤ n + 1 / 2
  /-- Midway the integer below is even. -/
  evenBelow : value = n + 1 / 2 → n % 2 = 0
  /-- Midway the integer above is even. -/
  evenAbove : n = value + 1 / 2 → n % 2 = 0

namespace IsRounded

variable {v w : ℚ} {m n : ℕ}

theorem mono (first : IsRounded v m) (second : IsRounded w n) (le : v ≤ w) : m ≤ n := by
  by_contra more
  -- Rounding down the greater value and up the smaller one needs both midway between two even neighbours.
  have apart : (n : ℚ) + 1 ≤ m := by exact_mod_cast Nat.lt_of_not_le more
  have upper := second.above
  have lower := first.below
  have even : n % 2 = 0 := second.evenBelow (by linarith)
  have even' : m % 2 = 0 := first.evenAbove (by linarith)
  have next : m = n + 1 := by
    have : (m : ℚ) = ((n + 1 : ℕ) : ℚ) := by push_cast; linarith
    exact_mod_cast this
  omega

theorem unique (first : IsRounded v m) (second : IsRounded v n) : m = n :=
  Nat.le_antisymm (first.mono second le_rfl) (second.mono first le_rfl)

theorem down (atLeast : n ≤ v) (less : v < n + 1 / 2) : IsRounded v n :=
  ⟨by linarith, less.le, fun h => by linarith, fun h => by linarith⟩

theorem up (more : n + 1 / 2 < v) (atMost : v ≤ n + 1) : IsRounded v (n + 1) := by
  constructor <;> push_cast <;> first | linarith | (intro h; linarith)

theorem midway (n : ℕ) : IsRounded (n + 1 / 2) (n + n % 2) := by
  obtain even | odd := Nat.mod_two_eq_zero_or_one n
  · rw [even, Nat.add_zero]
    exact ⟨by linarith, by linarith, fun _ => even, fun _ => even⟩
  · rw [odd]
    have even : (n + 1) % 2 = 0 := by omega
    exact ⟨by push_cast; linarith, by push_cast; linarith, fun _ => even, fun _ => even⟩

theorem natCast (n : ℕ) : IsRounded n n := down le_rfl (by linarith)

end IsRounded

theorem isRounded_roundEven {value : ℚ} (nonneg : 0 ≤ value) : IsRounded value (roundEven value) := by
  have positive : (0 : ℚ) < value.den := by exact_mod_cast value.pos
  have numerator : (value.num.toNat : ℚ) = value.den * value := by
    rw [mul_comm, Rat.mul_den_eq_num, ← Int.cast_natCast, Int.toNat_of_nonneg (Rat.num_nonneg.mpr nonneg)]
  unfold roundEven
  generalize wholeDef : value.num.toNat / value.den = whole
  generalize restDef : value.num.toNat % value.den = rest
  have parts : (value.den : ℚ) * value = value.den * whole + rest := by
    rw [← numerator, ← wholeDef, ← restDef]
    exact_mod_cast (Nat.div_add_mod _ _).symm
  have fraction : value = whole + rest / value.den := by
    field_simp
    linarith
  have atLeast : 0 ≤ (rest : ℚ) / value.den := by positivity
  have atMost : (rest : ℚ) / value.den < 1 := by
    rw [div_lt_one positive]
    exact_mod_cast restDef ▸ Nat.mod_lt _ value.pos
  dsimp only
  split
  · rename_i below
    have small : (rest : ℚ) / value.den < 1 / 2 := by
      rw [div_lt_div_iff₀ positive (by norm_num)]
      exact_mod_cast (by omega : rest * 2 < 1 * value.den)
    exact .down (by linarith) (by linarith)
  · split
    · rename_i above
      have large : 1 / 2 < (rest : ℚ) / value.den := by
        rw [div_lt_div_iff₀ (by norm_num) positive]
        exact_mod_cast (by omega : 1 * value.den < rest * 2)
      exact .up (by linarith) (by linarith)
    · have equal : (rest : ℚ) / value.den = 1 / 2 := by
        rw [div_eq_div_iff positive.ne' (by norm_num)]
        exact_mod_cast (by omega : rest * 2 = 1 * value.den)
      rw [fraction, equal]
      exact .midway whole

theorem roundEven_eq {value : ℚ} {n : ℕ} (nonneg : 0 ≤ value) (rounded : IsRounded value n) : roundEven value = n :=
  (isRounded_roundEven nonneg).unique rounded

theorem roundEven_mono {v w : ℚ} (nonneg : 0 ≤ v) (le : v ≤ w) : roundEven v ≤ roundEven w :=
  (isRounded_roundEven nonneg).mono (isRounded_roundEven (nonneg.trans le)) le

theorem roundEven_natCast (n : ℕ) : roundEven n = n :=
  roundEven_eq n.cast_nonneg (.natCast n)

namespace Binary64

theorem log_eq {value : ℚ} {k : ℤ} (lower : 2 ^ k ≤ value) (upper : value < 2 ^ (k + 1)) : Int.log 2 value = k := by
  have positive : 0 < value := lt_of_lt_of_le (by positivity) lower
  have atLeast := (Int.zpow_le_iff_le_log Nat.one_lt_two positive).mp (by simpa using lower)
  have atMost := (Int.lt_zpow_iff_log_lt Nat.one_lt_two positive).mp (by simpa using upper)
  omega

theorem binade_eq_log {value : ℚ} (positive : 0 < value) : binade value = Int.log 2 value := by
  have numerator : value.num.toNat ≠ 0 := by
    have := Rat.num_pos.mpr positive
    omega
  have quotient : value = value.num.toNat / value.den := by
    rw [← Int.cast_natCast, Int.toNat_of_nonneg (Rat.num_nonneg.mpr positive.le), Rat.num_div_den]
  have denominator : (0 : ℚ) < value.den := by exact_mod_cast value.pos
  have numLower : (2 : ℚ) ^ value.num.toNat.log2 ≤ value.num.toNat := by exact_mod_cast Nat.log2_self_le numerator
  have numUpper : (value.num.toNat : ℚ) < 2 ^ (value.num.toNat.log2 + 1) := by exact_mod_cast Nat.lt_log2_self
  have denLower : (2 : ℚ) ^ value.den.log2 ≤ value.den := by exact_mod_cast Nat.log2_self_le value.den_nz
  have denUpper : (value.den : ℚ) < 2 ^ (value.den.log2 + 1) := by exact_mod_cast Nat.lt_log2_self
  rw [binade]
  generalize value.num.toNat.log2 = a at *
  generalize value.den.log2 = b at *
  have upper : value < 2 ^ ((a : ℤ) - b + 1) := by
    rw [quotient, div_lt_iff₀ denominator]
    calc (value.num.toNat : ℚ) < 2 ^ (a + 1) := numUpper
      _ = 2 ^ ((a : ℤ) - b + 1) * 2 ^ b := by
        rw [← zpow_natCast, ← zpow_natCast, ← zpow_add₀ (by norm_num)]
        congr 1
        push_cast
        ring
      _ ≤ 2 ^ ((a : ℤ) - b + 1) * value.den := by gcongr
  have lower : 2 ^ ((a : ℤ) - b - 1) ≤ value := by
    rw [quotient, le_div_iff₀ denominator]
    calc (2 : ℚ) ^ ((a : ℤ) - b - 1) * value.den ≤ 2 ^ ((a : ℤ) - b - 1) * 2 ^ (b + 1) := by gcongr
      _ = 2 ^ a := by
        rw [← zpow_natCast, ← zpow_natCast, ← zpow_add₀ (by norm_num)]
        congr 1
        push_cast
        ring
      _ ≤ value.num.toNat := numLower
  have estimate : scaled 2 1 ((a : ℤ) - b) = 2 ^ ((a : ℤ) - b) := by
    rw [scaled_eq]
    simp
  rw [powerBelow, estimate]
  split
  · rename_i reached
    exact (log_eq reached upper).symm
  · rename_i missed
    exact (log_eq lower (by simpa using missed)).symm

theorem quantum_eq {value : ℚ} (positive : 0 < value) : quantum value = max (Int.log 2 value - 52) (-1074) := by
  rw [quantum, binade_eq_log positive]
  rfl

theorem quantum_mono {v w : ℚ} (positive : 0 < v) (le : v ≤ w) : quantum v ≤ quantum w := by
  have := Int.log_mono_right (b := 2) positive le
  rw [quantum_eq positive, quantum_eq (positive.trans_le le)]
  omega

/-- The significand of a value, before it is rounded to an integer. -/
def significand (value : ℚ) : ℚ := value / 2 ^ quantum value

theorem significand_lt {value : ℚ} (positive : 0 < value) : significand value < 2 ^ 53 := by
  have upper := Int.lt_zpow_succ_log_self Nat.one_lt_two value
  have wide : Int.log 2 value + 1 ≤ quantum value + 53 := by
    rw [quantum_eq positive]
    omega
  rw [significand, div_lt_iff₀ (by positivity)]
  calc value < 2 ^ (Int.log 2 value + 1) := by simpa using upper
    _ ≤ 2 ^ (quantum value + 53) := zpow_le_zpow_right₀ (by norm_num) wide
    _ = 2 ^ 53 * 2 ^ quantum value := by
      rw [zpow_add₀ (by norm_num), mul_comm]
      norm_num

/-- Above the subnormal doubles the leading bit is always there. -/
theorem le_significand {value : ℚ} (positive : 0 < value) (normal : leastQuantum < quantum value) :
    2 ^ 52 ≤ significand value := by
  have lower := Int.zpow_log_le_self Nat.one_lt_two positive
  have exact : quantum value + 52 = Int.log 2 value := by
    rw [quantum_eq positive] at normal ⊢
    simp only [leastQuantum] at normal
    omega
  rw [significand, le_div_iff₀ (by positivity)]
  calc (2 : ℚ) ^ 52 * 2 ^ quantum value = 2 ^ (quantum value + 52) := by
        rw [zpow_add₀ (by norm_num), mul_comm]
        norm_num
    _ ≤ value := by
      rw [exact]
      simpa using lower

theorem roundEven_significand_le {value : ℚ} (positive : 0 < value) : roundEven (significand value) ≤ 2 * hidden := by
  have := roundEven_mono (div_nonneg positive.le (by positivity)) (significand_lt positive).le
  rwa [show ((2 : ℚ) ^ 53) = ((2 * hidden : ℕ) : ℚ) by norm_num [hidden], roundEven_natCast] at this

theorem le_roundEven_significand {value : ℚ} (positive : 0 < value) (normal : leastQuantum < quantum value) :
    hidden ≤ roundEven (significand value) := by
  have := roundEven_mono (by positivity) (le_significand positive normal)
  rwa [show ((2 : ℚ) ^ 52) = (hidden : ℚ) by norm_num [hidden], roundEven_natCast] at this

/-- The place of the double nearest to a value, counted from zero as if there were no largest double. -/
def steps (value : ℚ) : ℕ :=
  if value ≤ 0 then 0 else (quantum value - leastQuantum).toNat * hidden + roundEven (significand value)

theorem leastQuantum_le (value : ℚ) : leastQuantum ≤ quantum value := le_max_right _ _

theorem steps_mono {v w : ℚ} (le : v ≤ w) : steps v ≤ steps w := by
  unfold steps
  split
  · exact Nat.zero_le _
  rename_i positive
  rw [not_le] at positive
  have positive' := positive.trans_le le
  rw [if_neg (not_le.mpr positive')]
  have nonneg : 0 ≤ significand v := div_nonneg positive.le (by positivity)
  have least := leastQuantum_le v
  obtain same | less := (quantum_mono positive le).eq_or_lt
  · rw [same]
    gcongr
    apply roundEven_mono nonneg
    unfold significand
    rw [same]
    gcongr
  · -- The greater value lies in a later binade, where the count starts above all of the earlier one.
    have top := roundEven_significand_le positive
    have bottom := le_roundEven_significand positive' (least.trans_lt less)
    simp only [hidden] at *
    omega

theorem steps_of_nonpos {value : ℚ} (nonpos : value ≤ 0) : steps value = 0 := if_pos nonpos

/-- A significand that fills its 53 bits, unless the exponent is the least. -/
structure IsCanonical (mantissa : ℕ) (exponent : ℤ) : Prop where
  short : mantissa < 2 * hidden
  inRange : leastQuantum ≤ exponent
  filled : hidden ≤ mantissa ∨ exponent = leastQuantum

namespace IsCanonical

variable {mantissa : ℕ} {exponent : ℤ}

theorem quantum_eq (canonical : IsCanonical mantissa exponent) (positive : 0 < mantissa) :
    quantum (mantissa * 2 ^ exponent) = exponent := by
  have scale : (0 : ℚ) < 2 ^ exponent := by positivity
  have isPositive : (0 : ℚ) < mantissa * 2 ^ exponent := by positivity
  have upper : Int.log 2 ((mantissa : ℚ) * 2 ^ exponent) < exponent + 53 := by
    rw [← Int.lt_zpow_iff_log_lt Nat.one_lt_two isPositive, zpow_add₀ (by norm_num), mul_comm]
    have short : (mantissa : ℚ) < 2 ^ 53 := by exact_mod_cast canonical.short
    simpa using (mul_lt_mul_iff_right₀ scale).mpr short
  have lower : exponent = leastQuantum ∨ exponent + 52 ≤ Int.log 2 ((mantissa : ℚ) * 2 ^ exponent) := by
    refine canonical.filled.symm.imp_right fun filled => ?_
    rw [← Int.zpow_le_iff_le_log Nat.one_lt_two isPositive, zpow_add₀ (by norm_num), mul_comm]
    have filled : (2 ^ 52 : ℚ) ≤ mantissa := by exact_mod_cast filled
    simpa using (mul_le_mul_iff_left₀ scale).mpr filled
  have inRange := canonical.inRange
  rw [Binary64.quantum_eq isPositive]
  simp only [leastQuantum] at *
  omega

/-- Rounding leaves a double where it is. -/
theorem steps_eq (canonical : IsCanonical mantissa exponent) :
    steps (mantissa * 2 ^ exponent) = (exponent - leastQuantum).toNat * hidden + mantissa := by
  obtain rfl | positive := Nat.eq_zero_or_pos mantissa
  · have least : exponent = leastQuantum := canonical.filled.resolve_left (by decide)
    simp [steps, least]
  · have isPositive : (0 : ℚ) < mantissa * 2 ^ exponent := by positivity
    have scale : (2 : ℚ) ^ exponent ≠ 0 := by positivity
    rw [steps, if_neg (not_le.mpr isPositive), significand, canonical.quantum_eq positive, mul_div_cancel_right₀ _ scale,
      roundEven_natCast]

end IsCanonical

/-- The exponent of the double with a number. -/
def exponentAt (n : ℕ) : ℤ := leastQuantum + (n / hidden - 1 : ℕ)

/-- The significand of the double with a number. -/
def mantissaAt (n : ℕ) : ℕ := n - (n / hidden - 1) * hidden

/-- The value of the double with a number, counted from zero. -/
def valueAt (n : ℕ) : ℚ := mantissaAt n * 2 ^ exponentAt n

theorem isCanonical_at (n : ℕ) : IsCanonical (mantissaAt n) (exponentAt n) := by
  unfold mantissaAt exponentAt
  constructor <;> simp only [hidden, leastQuantum] <;> omega

theorem number_eq (n : ℕ) : (exponentAt n - leastQuantum).toNat * hidden + mantissaAt n = n := by
  unfold mantissaAt exponentAt
  simp only [hidden, leastQuantum]
  omega

theorem steps_valueAt (n : ℕ) : steps (valueAt n) = n :=
  (isCanonical_at n).steps_eq.trans (number_eq n)

theorem valueAt_zero : valueAt 0 = 0 := by
  simp [valueAt, mantissaAt]

theorem valueAt_le_iff {m n : ℕ} : valueAt m ≤ valueAt n ↔ m ≤ n := by
  have mono {m n : ℕ} (le : valueAt m ≤ valueAt n) : m ≤ n := by
    simpa only [steps_valueAt] using steps_mono le
  refine ⟨mono, fun le => le_of_not_gt fun less => ?_⟩
  have same : n = m := Nat.le_antisymm (mono less.le) le
  exact less.ne (congrArg valueAt same)

theorem valueAt_nonneg (n : ℕ) : 0 ≤ valueAt n := by
  unfold valueAt
  positivity

theorem IsCanonical.valueAt_eq {mantissa : ℕ} {exponent : ℤ} (canonical : IsCanonical mantissa exponent) :
    valueAt ((exponent - leastQuantum).toNat * hidden + mantissa) = mantissa * 2 ^ exponent := by
  obtain ⟨short, inRange, filled⟩ := canonical
  rw [valueAt, mantissaAt, exponentAt]
  simp only [hidden, leastQuantum] at *
  congr 2 <;> omega

theorem exists_canonical {k : ℕ} (small : k < 2 * hidden) :
    ∃ mantissa exponent, IsCanonical mantissa exponent ∧ exponent ≤ 0 ∧ (mantissa * 2 ^ exponent : ℚ) = k := by
  obtain rfl | positive := Nat.eq_zero_or_pos k
  · exact ⟨0, leastQuantum, ⟨by decide, le_rfl, .inr rfl⟩, by decide, by simp⟩
  have short : k.log2 < 53 := (Nat.log2_lt positive.ne').mpr small
  have split : 52 = k.log2 + (52 - k.log2) := by omega
  refine ⟨k * 2 ^ (52 - k.log2), -(52 - k.log2 : ℕ), ⟨?_, ?_, .inl ?_⟩, by omega, ?_⟩
  · calc k * 2 ^ (52 - k.log2) < 2 ^ (k.log2 + 1) * 2 ^ (52 - k.log2) := by
          have := @Nat.lt_log2_self k
          gcongr
      _ = 2 * hidden := by
          rw [pow_succ, mul_right_comm, ← pow_add, ← split]
          rfl
  · simp only [leastQuantum]
    omega
  · calc hidden = 2 ^ k.log2 * 2 ^ (52 - k.log2) := by
          rw [← pow_add, ← split]
          rfl
      _ ≤ k * 2 ^ (52 - k.log2) := by
          have := Nat.log2_self_le positive.ne'
          gcongr
  · rw [zpow_neg, zpow_natCast]
    push_cast
    field_simp

/-- The number of the double nearest to a value. All values that are too large have that of infinity. -/
def number (value : ℚ) : ℕ := min (steps value) infinityBits

theorem number_le (value : ℚ) : number value ≤ infinityBits := min_le_right _ _

theorem number_mono {v w : ℚ} (le : v ≤ w) : number v ≤ number w := min_le_min_right _ (steps_mono le)

theorem number_zero : number 0 = 0 := by
  rw [number, steps_of_nonpos le_rfl, Nat.zero_min]

theorem number_valueAt {n : ℕ} (bound : n ≤ infinityBits) : number (valueAt n) = n := by
  rw [number, steps_valueAt, Nat.min_eq_left bound]

/-- Every natural number of at most 53 bits is the value of a finite double. -/
theorem number_natCast {k : ℕ} (small : k < 2 * hidden) : number k < infinityBits ∧ valueAt (number k) = k := by
  obtain ⟨mantissa, exponent, canonical, atMost, value⟩ := exists_canonical small
  have short := canonical.short
  have finite : (exponent - leastQuantum).toNat * hidden + mantissa < infinityBits := by
    simp only [infinityBits, hidden, leastQuantum] at *
    omega
  rw [number, ← value, canonical.steps_eq, Nat.min_eq_left finite.le]
  exact ⟨finite, canonical.valueAt_eq⟩

end Binary64

end Reckoner
