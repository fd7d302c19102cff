import Reckoner.Proofs.Doubles

/-! # Arithmetic of doubles

Sums and products do not depend on the order of their operands. A product, and a difference that is not negative, is the
exact one rounded to the nearest double, so greater factors never have a smaller product.
-/

namespace Reckoner.Binary64

open Float.Model Float.Model.UnpackedFloat

theorem unpacked_add_comm (spec : Format) (x y : UnpackedFloat) : UnpackedFloat.add spec x y = UnpackedFloat.add spec y x := by
  cases x <;> cases y <;> try rfl
  case infinity.infinity s t => cases s <;> cases t <;> rfl
  case zero.zero s t => cases s <;> cases t <;> rfl
  case finite.finite s m e _ t m' e' _ =>
    simp only [UnpackedFloat.add, decreaseExponent, min_comm e e', Int.add_comm (s.apply _)]

theorem unpacked_mul_comm (spec : Format) (x y : UnpackedFloat) : UnpackedFloat.mul spec x y = UnpackedFloat.mul spec y x := by
  have signs (s t : Sign) : s * t = t * s := by cases s <;> cases t <;> rfl
  cases x <;> cases y <;> simp only [UnpackedFloat.mul]
  case finite.finite s m e _ t m' e' _ => rw [signs, Nat.mul_comm, Int.add_comm]
  all_goals rw [signs]

protected theorem add_comm (x y : Float) : x + y = y + x :=
  congrArg (fun u => (⟨.pack u⟩ : Float)) (unpacked_add_comm .binary64 x.toModel.unpack y.toModel.unpack)

protected theorem mul_comm (x y : Float) : x * y = y * x :=
  congrArg (fun u => (⟨.pack u⟩ : Float)) (unpacked_mul_comm .binary64 x.toModel.unpack y.toModel.unpack)

/-- What the bit after a mantissa stands for. -/
def half (bit : Bool) : ℚ := if bit then 1 / 2 else 0

/-- What a mantissa and the bit after it leave of a value. -/
def remainder (extended : ExtendedMantissa) (value : ℚ) : ℚ := value - extended.mantissa - half extended.roundBit

/-- A mantissa is the start of a value, the round bit is its next bit, and the sticky bit tells whether more follow. -/
structure Extends (extended : ExtendedMantissa) (value : ℚ) : Prop where
  nonneg : 0 ≤ remainder extended value
  small : remainder extended value < 1 / 2
  sticky : extended.stickyBit = true ↔ remainder extended value ≠ 0

namespace Extends

variable {extended : ExtendedMantissa} {value : ℚ}

theorem exact (mantissa : ℕ) : Extends (.ofMantissaAndAccuracy mantissa .exact) mantissa := by
  constructor <;> simp [ExtendedMantissa.ofMantissaAndAccuracy, remainder, half]

theorem remainder_halved (extended : ExtendedMantissa) (value : ℚ) :
    remainder extended.shiftRightOne (value / 2) = (remainder extended value + half extended.roundBit) / 2 := by
  have parity : half (extended.mantissa % 2 != 0) = (extended.mantissa % 2 : ℕ) / 2 := by
    obtain even | odd := Nat.mod_two_eq_zero_or_one extended.mantissa
    · simp [half, even]
    · simp [half, odd]
  have split : (extended.mantissa : ℚ) = 2 * (extended.mantissa / 2 : ℕ) + (extended.mantissa % 2 : ℕ) := by
    exact_mod_cast (Nat.div_add_mod _ _).symm
  simp only [remainder, ExtendedMantissa.shiftRightOne, parity]
  linarith

theorem half_nonneg (bit : Bool) : 0 ≤ half bit ∧ half bit ≤ 1 / 2 := by
  cases bit <;> norm_num [half]

theorem halved (h : Extends extended value) : Extends extended.shiftRightOne (value / 2) := by
  obtain ⟨nonneg, small, sticky⟩ := h
  have ⟨atLeast, atMost⟩ := half_nonneg extended.roundBit
  constructor
  · rw [remainder_halved]
    linarith
  · rw [remainder_halved]
    linarith
  · rw [remainder_halved, ExtendedMantissa.shiftRightOne, Bool.or_eq_true, sticky]
    cases extended.roundBit with
    | false => simp [half]
    | true => simpa [half] using (by linarith : 0 < remainder extended value + 1 / 2).ne'

theorem shifted (h : Extends extended value) (places : ℕ) : Extends (extended >>> places) (value / 2 ^ places) := by
  induction places with
  | zero =>
      rw [pow_zero, div_one]
      exact h
  | succ places ih =>
      rw [pow_succ, ← div_div]
      exact ih.halved

theorem isRounded (h : Extends extended value) : IsRounded value extended.roundedMantissa := by
  obtain ⟨mantissa, roundBit, stickyBit⟩ := extended
  obtain ⟨nonneg, small, sticky⟩ := h
  simp only [remainder] at nonneg small sticky
  cases roundBit <;> cases stickyBit <;> simp only [half, reduceIte, Bool.false_eq_true, false_iff, true_iff, not_not] at *
  · rw [(by linarith : value = mantissa)]
    exact .natCast mantissa
  · change IsRounded value mantissa
    exact .down (by linarith) (by linarith)
  · rw [(by linarith : value = mantissa + 1 / 2)]
    exact .midway mantissa
  · have := nonneg.lt_of_ne' sticky
    exact .up (by linarith) (by linarith)

end Extends

theorem targetExponent_eq {mantissa : ℕ} (positive : 0 < mantissa) (exponent : ℤ) :
    Format.binary64.targetExponent (totalExponent mantissa exponent) = quantum (mantissa * 2 ^ exponent) := by
  have log : Int.log 2 ((mantissa : ℚ) * 2 ^ exponent) = mantissa.log2 + exponent := by
    have lower : (2 : ℚ) ^ mantissa.log2 ≤ mantissa := by exact_mod_cast Nat.log2_self_le positive.ne'
    have upper : (mantissa : ℚ) < 2 ^ (mantissa.log2 + 1) := by exact_mod_cast Nat.lt_log2_self
    apply log_eq
    · rw [zpow_add₀ (by norm_num), zpow_natCast]
      gcongr
    · rw [add_right_comm, zpow_add₀ (by norm_num)]
      gcongr
      exact_mod_cast upper
  have isPositive : (0 : ℚ) < mantissa * 2 ^ exponent := by positivity
  have least : Format.binary64.minExponent = -1074 := by decide
  rw [quantum_eq isPositive, log, Format.targetExponent, totalExponent, least, Format.mantissaBits]
  push_cast
  congr 1
  ring

/-- A significand with 53 bits stays as it is. One that was rounded up to the next power of two loses its last zero. -/
theorem shift_rounded {mantissa : ℕ} {exponent : ℤ} (positive : 0 < mantissa) (atMost : mantissa ≤ 2 * hidden)
    (inRange : leastQuantum ≤ exponent) (filled : hidden ≤ mantissa ∨ exponent = leastQuantum) :
    ∃ mantissa' exponent', shiftToTargetExponent Format.binary64 mantissa exponent .exact =
        (.ofMantissaAndAccuracy mantissa' .exact, exponent') ∧
      IsCanonical mantissa' exponent' ∧ 0 < mantissa' ∧
      (exponent' - leastQuantum).toNat * hidden + mantissa' = (exponent - leastQuantum).toNat * hidden + mantissa := by
  rw [shiftToTargetExponent, shiftToExponent, targetExponent_eq positive]
  obtain short | rfl := atMost.lt_or_eq
  · have canonical : IsCanonical mantissa exponent := ⟨short, inRange, filled⟩
    rw [canonical.quantum_eq positive, Int.sub_self]
    exact ⟨mantissa, exponent, by rw [Int.toNat_zero, Nat.cast_zero, Int.add_zero]; rfl, canonical, positive, rfl⟩
  · have canonical : IsCanonical hidden (exponent + 1) := ⟨by decide, by omega, .inl le_rfl⟩
    have same : ((2 * hidden : ℕ) : ℚ) * 2 ^ exponent = hidden * 2 ^ (exponent + 1) := by
      rw [zpow_add_one₀ (by norm_num)]
      push_cast
      ring
    have one : (exponent + 1 - exponent).toNat = 1 := by omega
    rw [same, canonical.quantum_eq (by decide), one]
    refine ⟨hidden, exponent + 1, rfl, canonical, by decide, ?_⟩
    have next : (exponent + 1 - leastQuantum).toNat = (exponent - leastQuantum).toNat + 1 := by omega
    rw [next]
    ring

/-- Rounding packs to the number of the value, with the sign. The exponent must not lie above the spacing of the doubles
around the value. -/
theorem pack_roundWithAccuracy (sign : Sign) {mantissa : ℕ} {exponent : ℤ} (positive : 0 < mantissa)
    (fine : exponent ≤ quantum (mantissa * 2 ^ exponent)) :
    UnpackedFloat.pack Format.binary64 (roundWithAccuracy Format.binary64 sign mantissa exponent .exact) =
      pattern sign (number (mantissa * 2 ^ exponent)) := by
  have isPositive : (0 : ℚ) < mantissa * 2 ^ exponent := by positivity
  have least := leastQuantum_le (mantissa * 2 ^ exponent)
  rw [roundWithAccuracy, shiftToTargetExponent, shiftToExponent, targetExponent_eq positive, number, steps,
    if_neg (not_le.mpr isPositive)]
  generalize value : (mantissa : ℚ) * 2 ^ exponent = v at *
  dsimp only
  generalize places : (quantum v - exponent).toNat = k
  have reached : exponent + k = quantum v := by omega
  have scale : (mantissa : ℚ) / 2 ^ k = significand v := by
    rw [significand, ← reached, ← value, zpow_add₀ (by norm_num), zpow_natCast]
    field_simp
  have rounded := ((Extends.exact mantissa).shifted k).isRounded
  rw [scale] at rounded
  rw [rounded.unique (isRounded_roundEven (div_nonneg isPositive.le (by positivity))), reached]
  have atMost := roundEven_significand_le isPositive
  have filled : hidden ≤ roundEven (significand v) ∨ quantum v = leastQuantum :=
    least.lt_or_eq.imp (le_roundEven_significand isPositive) Eq.symm
  obtain none | some := Nat.eq_zero_or_pos (roundEven (significand v))
  · have first : quantum v = leastQuantum := filled.resolve_left (by rw [none]; decide)
    rw [none, first]
    cases sign <;> rfl
  · obtain ⟨mantissa', exponent', shifts, canonical, positive', number⟩ := shift_rounded some atMost least filled
    rw [shifts, ← number, ← pack_finite sign canonical positive']
    exact congrArg (UnpackedFloat.pack Format.binary64) (dif_neg positive'.ne')

/-- Where a lower exponent is asked for, the mantissa grows to keep the value. -/
theorem decreaseExponent_value (mantissa : ℕ) (exponent target : ℤ) :
    ((decreaseExponent mantissa exponent target).1 : ℚ) * 2 ^ min exponent target = mantissa * 2 ^ exponent := by
  have split : exponent = ((exponent - target).toNat : ℤ) + min exponent target := by omega
  rw [decreaseExponent, Nat.shiftLeft_eq, Nat.cast_mul, mul_assoc]
  congr 1
  conv_rhs => rw [split, zpow_add₀ (by norm_num), zpow_natCast]
  push_cast
  rfl

theorem pack_round (sign : Sign) {mantissa : ℕ} (positive : 0 < mantissa) (exponent : ℤ) :
    UnpackedFloat.pack Format.binary64 (UnpackedFloat.round Format.binary64 sign mantissa exponent) =
      pattern sign (number (mantissa * 2 ^ exponent)) := by
  obtain ⟨target, same⟩ : ∃ target, target = quantum (mantissa * 2 ^ exponent) := ⟨_, rfl⟩
  have value := decreaseExponent_value mantissa exponent target
  have lower : (decreaseExponent mantissa exponent target).2 = min exponent target := by
    simp only [decreaseExponent]
    omega
  have isPositive : (0 : ℚ) < mantissa * 2 ^ exponent := by positivity
  rw [UnpackedFloat.round, targetExponent_eq positive, ← same]
  dsimp only
  rw [lower]
  generalize (decreaseExponent mantissa exponent target).1 = mantissa' at *
  have positive' : 0 < mantissa' := by
    rw [← value] at isPositive
    exact_mod_cast pos_of_mul_pos_left isPositive (by positivity)
  rw [← value]
  apply pack_roundWithAccuracy sign positive'
  rw [value, ← same]
  exact min_le_right _ _

theorem pack_normalize {mantissa : ℤ} (nonneg : 0 ≤ mantissa) (exponent : ℤ) :
    UnpackedFloat.pack Format.binary64 (UnpackedFloat.normalize Format.binary64 mantissa exponent .positive) =
      pattern .positive (number (mantissa * 2 ^ exponent)) := by
  lift mantissa to ℕ using nonneg
  rw [UnpackedFloat.normalize, Int.cast_natCast]
  obtain rfl | positive := Nat.eq_zero_or_pos mantissa
  · have none : ((0 : ℕ) : ℚ) * 2 ^ exponent = 0 := by simp
    rw [none, number_zero]
    rfl
  · rw [compare_gt_iff_gt.mpr (Int.natCast_pos.mpr positive)]
    exact pack_round .positive positive exponent

theorem eq_signed {unpacked : UnpackedFloat} {sign : Sign} {n : ℕ} (bound : n ≤ infinityBits)
    (packs : UnpackedFloat.pack Format.binary64 unpacked = pattern sign n) : (⟨.pack unpacked⟩ : Float) = signed sign n := by
  rw [← pack_parts sign bound] at packs
  exact Float.toBits_inj.mp (UInt64.toBitVec_inj.mp packs)

theorem le_quantum {mantissa : ℕ} (filled : hidden ≤ mantissa) (exponent : ℤ) :
    exponent ≤ quantum (mantissa * 2 ^ exponent) := by
  obtain inRange | outside := le_or_gt leastQuantum exponent
  · have canonical : IsCanonical hidden exponent := ⟨by decide, inRange, .inl le_rfl⟩
    have positive : (0 : ℚ) < hidden * 2 ^ exponent := mul_pos (by norm_num [hidden]) (by positivity)
    calc exponent = quantum (hidden * 2 ^ exponent) := (canonical.quantum_eq (by decide)).symm
      _ ≤ quantum (mantissa * 2 ^ exponent) := quantum_mono positive (by gcongr)
  · exact outside.le.trans (leastQuantum_le _)

/-- The exact product of two doubles never needs a finer exponent than it has. -/
theorem mul_exponent_le {m n : ℕ} (positive : 0 < m) (positive' : 0 < n) :
    exponentAt m + exponentAt n ≤ quantum ((mantissaAt m * mantissaAt n : ℕ) * 2 ^ (exponentAt m + exponentAt n)) := by
  have some := mantissaAt_pos.mpr positive
  have some' := mantissaAt_pos.mpr positive'
  obtain filled | least := (isCanonical_at m).filled
  · exact le_quantum (filled.trans (Nat.le_mul_of_pos_right _ some')) _
  obtain filled' | least' := (isCanonical_at n).filled
  · exact le_quantum (filled'.trans (Nat.le_mul_of_pos_left _ some)) _
  · refine le_trans ?_ (leastQuantum_le _)
    rw [least, least']
    decide

/-- A finite product is rounded to the nearest double. -/
theorem mul_signed (sign sign' : Sign) {m n : ℕ} (finite : m < infinityBits) (finite' : n < infinityBits) :
    signed sign m * signed sign' n =
      signed (sign * sign') (number (valueAt m * valueAt n)) := by
  change (⟨.pack (UnpackedFloat.mul _ (signed sign m).toModel.unpack (signed sign' n).toModel.unpack)⟩ : Float) = _
  rw [unpack_signed sign finite.le, unpack_signed sign' finite'.le]
  obtain rfl | positive := Nat.eq_zero_or_pos m
  · rw [valueAt_zero, zero_mul, number_zero]
    obtain rfl | positive' := Nat.eq_zero_or_pos n
    · rfl
    · rw [parts_finite sign' positive' finite']
      rfl
  obtain rfl | positive' := Nat.eq_zero_or_pos n
  · rw [valueAt_zero, mul_zero, number_zero, parts_finite sign positive finite]
    rfl
  have value : valueAt m * valueAt n = (mantissaAt m * mantissaAt n : ℕ) * 2 ^ (exponentAt m + exponentAt n) := by
    rw [valueAt, valueAt, zpow_add₀ (by norm_num)]
    push_cast
    ring
  rw [parts_finite sign positive finite, parts_finite sign' positive' finite', UnpackedFloat.mul, value]
  apply eq_signed (number_le _)
  exact pack_roundWithAccuracy _ (Nat.mul_pos (mantissaAt_pos.mpr positive) (mantissaAt_pos.mpr positive'))
    (mul_exponent_le positive positive')

theorem pack_sub_finite {m n : ℕ} {e f : ℤ} (positive : 0 < m) (positive' : 0 < n)
    (nonneg : (0 : ℚ) ≤ m * 2 ^ e - n * 2 ^ f) :
    UnpackedFloat.pack Format.binary64
        (UnpackedFloat.sub Format.binary64 (.finite .positive m e positive) (.finite .positive n f positive')) =
      pattern .positive (number (m * 2 ^ e - n * 2 ^ f)) := by
  have left := decreaseExponent_value m e (min e f)
  have right := decreaseExponent_value n f (min e f)
  rw [min_eq_right (min_le_left _ _)] at left
  rw [min_eq_right (min_le_right _ _)] at right
  have value : (m * 2 ^ e - n * 2 ^ f : ℚ) =
      ((((decreaseExponent m e (min e f)).1 : ℤ) - (decreaseExponent n f (min e f)).1 : ℤ) : ℚ) * 2 ^ min e f := by
    rw [← left, ← right]
    push_cast
    ring
  rw [value] at nonneg ⊢
  exact pack_normalize (Int.cast_nonneg_iff.mp (nonneg_of_mul_nonneg_left nonneg (by positivity))) _

/-- A difference that is not negative is rounded to the nearest double. -/
theorem sub_signed {m n : ℕ} (le : n ≤ m) (finite : m < infinityBits) :
    signed .positive m - signed .positive n = signed .positive (number (valueAt m - valueAt n)) := by
  change (⟨.pack (UnpackedFloat.sub _ (signed .positive m).toModel.unpack (signed .positive n).toModel.unpack)⟩ : Float) = _
  have finite' := le.trans_lt finite
  rw [unpack_signed .positive finite.le, unpack_signed .positive finite'.le]
  obtain rfl | positive' := Nat.eq_zero_or_pos n
  · rw [valueAt_zero, sub_zero, number_valueAt finite.le, signed]
    obtain rfl | positive := Nat.eq_zero_or_pos m
    · rfl
    · rw [parts_finite .positive positive finite]
      rfl
  · rw [parts_finite .positive (positive'.trans_le le) finite, parts_finite .positive positive' finite']
    exact eq_signed (number_le _) (pack_sub_finite _ _ (sub_nonneg.mpr (valueAt_le_iff.mpr le)))

theorem inf_eq : Float.inf = signed .positive infinityBits := by
  decide +kernel

/-- The number of a result: that of infinity, or that of the double nearest to the exact result. -/
def resultNumber (infinite : Prop) [Decidable infinite] (value : ℚ) : ℕ :=
  if infinite then infinityBits else number value

theorem resultNumber_le (infinite : Prop) [Decidable infinite] (value : ℚ) : resultNumber infinite value ≤ infinityBits := by
  unfold resultNumber
  split
  · exact le_rfl
  · exact number_le value

theorem resultNumber_mono {infinite infinite' : Prop} [Decidable infinite] [Decidable infinite'] {v w : ℚ}
    (stays : infinite → infinite') (le : v ≤ w) : resultNumber infinite v ≤ resultNumber infinite' w := by
  by_cases h : infinite'
  · rw [resultNumber.eq_def infinite', if_pos h]
    exact resultNumber_le infinite v
  · rw [resultNumber, resultNumber, if_neg h, if_neg (mt stays h)]
    exact number_mono le

/-- The number of the product of two positive doubles. -/
def product (m n : ℕ) : ℕ := resultNumber (m = infinityBits ∨ n = infinityBits) (valueAt m * valueAt n)

/-- The number of a positive double less a finite one. -/
def difference (m n : ℕ) : ℕ := resultNumber (m = infinityBits) (valueAt m - valueAt n)

variable {m m' n n' : ℕ}

theorem product_le (m n : ℕ) : product m n ≤ infinityBits := resultNumber_le _ _

theorem difference_le (m n : ℕ) : difference m n ≤ infinityBits := resultNumber_le _ _

theorem product_mono (le : m ≤ m') (le' : n ≤ n') (bound : m' ≤ infinityBits) (bound' : n' ≤ infinityBits) :
    product m n ≤ product m' n' := by
  have values := mul_le_mul (valueAt_le_iff.mpr le) (valueAt_le_iff.mpr le') (valueAt_nonneg n) (valueAt_nonneg m')
  exact resultNumber_mono (by omega) values

theorem difference_mono (le : m ≤ m') (bound : m' ≤ infinityBits) (n : ℕ) : difference m n ≤ difference m' n :=
  resultNumber_mono (by omega) (sub_le_sub_right (valueAt_le_iff.mpr le) _)

theorem mul_positive (positive : 0 < m) (positive' : 0 < n) (bound : m ≤ infinityBits) (bound' : n ≤ infinityBits) :
    signed .positive m * signed .positive n = signed .positive (product m n) := by
  by_cases infinite : m = infinityBits ∨ n = infinityBits
  · rw [product, resultNumber, if_pos infinite]
    change (⟨.pack (UnpackedFloat.mul _ (signed _ m).toModel.unpack (signed _ n).toModel.unpack)⟩ : Float) = _
    rw [unpack_signed _ bound, unpack_signed _ bound']
    obtain rfl | finite := bound.eq_or_lt <;> obtain rfl | finite' := bound'.eq_or_lt
    · rfl
    · rw [parts_finite _ positive' finite']
      rfl
    · rw [parts_finite _ positive finite]
      rfl
    · omega
  · rw [product, resultNumber, if_neg infinite]
    exact mul_signed .positive .positive (by omega) (by omega)

theorem sub_positive (le : n ≤ m) (bound : m ≤ infinityBits) (finite : n < infinityBits) :
    signed .positive m - signed .positive n = signed .positive (difference m n) := by
  obtain rfl | finite' := bound.eq_or_lt
  · rw [difference, resultNumber, if_pos rfl]
    change (⟨.pack (UnpackedFloat.sub _ (signed _ infinityBits).toModel.unpack (signed _ n).toModel.unpack)⟩ : Float) = _
    rw [unpack_signed _ bound, unpack_signed _ finite.le]
    obtain rfl | positive := Nat.eq_zero_or_pos n
    · rfl
    · rw [parts_finite _ positive finite]
      rfl
  · rw [difference, resultNumber, if_neg finite'.ne]
    exact sub_signed le finite'

/-- The number of one. -/
def one : ℕ := 1023 * hidden

theorem one_eq : (1 : Float) = signed .positive one := by
  decide +kernel

theorem one_le_iff {x : Float} : 1 ≤ x ↔ ∃ m, one ≤ m ∧ m ≤ infinityBits ∧ x = signed .positive m := by
  rw [one_eq, signed_le_iff (by decide) (by decide)]

variable {x x' y y' : Float}

/-- Greater factors have a greater product, or the same. -/
theorem mul_le_mul_of_one_le (h : 1 ≤ x) (h' : 1 ≤ y) (le : x ≤ x') (le' : y ≤ y') : x * y ≤ x' * y' := by
  have positive : 0 < one := by decide
  obtain ⟨m, atLeast, bound, rfl⟩ := one_le_iff.mp h
  obtain ⟨n, atLeast', bound', rfl⟩ := one_le_iff.mp h'
  obtain ⟨m', less, bounded, rfl⟩ := (signed_le_iff bound (positive.trans_le atLeast)).mp le
  obtain ⟨n', less', bounded', rfl⟩ := (signed_le_iff bound' (positive.trans_le atLeast')).mp le'
  rw [mul_positive (by omega) (by omega) bound bound', mul_positive (by omega) (by omega) bounded bounded',
    signed_le_signed (product_le m n) (product_le m' n')]
  exact product_mono less less' bounded bounded'

theorem sub_one_mono (h : 1 ≤ x) (le : x ≤ x') : x - 1 ≤ x' - 1 := by
  have positive : 0 < one := by decide
  obtain ⟨m, atLeast, bound, rfl⟩ := one_le_iff.mp h
  obtain ⟨m', less, bound', rfl⟩ := (signed_le_iff bound (positive.trans_le atLeast)).mp le
  rw [one_eq, sub_positive atLeast bound (by decide), sub_positive (atLeast.trans less) bound' (by decide),
    signed_le_signed (difference_le m one) (difference_le m' one)]
  exact difference_mono less bound' one

theorem inf_le_iff : Float.inf ≤ x ↔ x = Float.inf := by
  rw [inf_eq, signed_le_iff le_rfl (by decide)]
  constructor
  · rintro ⟨m, atLeast, bound, rfl⟩
    rw [Nat.le_antisymm bound atLeast]
  · rintro rfl
    exact ⟨infinityBits, le_rfl, le_rfl, rfl⟩

/-- Infinity stays what it is under further factors. -/
theorem inf_mul (h : 1 ≤ x) : Float.inf * x = Float.inf := by
  have positive : 0 < one := by decide
  obtain ⟨m, atLeast, bound, rfl⟩ := one_le_iff.mp h
  rw [inf_eq, mul_positive (by decide) (positive.trans_le atLeast) le_rfl bound, product, resultNumber,
    if_pos (.inl rfl)]

/-- Up to 53 bits a natural number less one is exact. -/
theorem nearest_sub_one {k : ℕ} (small : k + 1 < 2 * hidden) : nearest (k + 1 : ℕ) - 1 = nearest k := by
  have unit : (1 : Float) = nearest (1 : ℕ) := by decide +kernel
  have less : number (1 : ℕ) ≤ number (k + 1 : ℕ) := number_mono (by norm_cast; omega)
  obtain ⟨finite, exact⟩ := number_natCast small
  have exact' := (number_natCast (by decide : 1 < 2 * hidden)).2
  rw [unit, nearest_eq, nearest_eq, nearest_eq, sub_signed less finite, exact, exact']
  push_cast
  rw [add_sub_cancel_right]

end Reckoner.Binary64
