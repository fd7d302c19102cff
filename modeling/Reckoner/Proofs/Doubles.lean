import Mathlib
import Reckoner.Proofs.Rounding

/-! # Doubles as signs and numbers

A double is the NaN, or it has a sign and a number: its place in the order of magnitudes, counted from zero, with the
infinities at the end.
-/

namespace Reckoner.Binary64

open Float.Model Float.Model.UnpackedFloat

/-- The parts of the double with a sign and a number. -/
def parts (sign : Sign) (n : ℕ) : UnpackedFloat :=
  if n = infinityBits then .infinity sign
  else if positive : 0 < mantissaAt n then .finite sign (mantissaAt n) (exponentAt n) positive
  else .zero sign

/-- The bit pattern of the double with a sign and a number. -/
def pattern (sign : Sign) (n : ℕ) : BitVec Format.binary64.numBits :=
  packComponents Format.binary64 sign (BitVec.ofNat 11 (n / hidden)) (BitVec.ofNat 52 n)

/-- The double with a sign and a number. -/
def signed (sign : Sign) (n : ℕ) : Float := ⟨.pack (parts sign n)⟩

theorem mantissaAt_pos {n : ℕ} : 0 < mantissaAt n ↔ 0 < n := by
  unfold mantissaAt
  simp only [hidden]
  omega

theorem parts_finite (sign : Sign) {n : ℕ} (positive : 0 < n) (finite : n < infinityBits) :
    parts sign n = .finite sign (mantissaAt n) (exponentAt n) (mantissaAt_pos.mpr positive) := by
  rw [parts, if_neg finite.ne, dif_pos (mantissaAt_pos.mpr positive)]

/-- A double is zero, finite or infinite. -/
theorem number_cases {n : ℕ} (bound : n ≤ infinityBits) : n = 0 ∨ 0 < n ∧ n < infinityBits ∨ n = infinityBits := by
  omega

theorem pack_finite (sign : Sign) {mantissa : ℕ} {exponent : ℤ} (canonical : IsCanonical mantissa exponent)
    (positive : 0 < mantissa) :
    UnpackedFloat.pack Format.binary64 (.finite sign mantissa exponent positive) =
      pattern sign (min ((exponent - leastQuantum).toNat * hidden + mantissa) infinityBits) := by
  obtain ⟨short, inRange, filled⟩ := canonical
  have biased : (exponent + Format.binary64.exponentBias + Format.binary64.mantissaBitsWithoutImplicit).toNat =
      (exponent - leastQuantum).toNat + 1 := by
    have bias : (Format.binary64.exponentBias : ℤ) = 1023 := rfl
    rw [bias]
    simp only [leastQuantum] at *
    omega
  rw [UnpackedFloat.pack]
  simp only [biased]
  simp only [leastQuantum] at filled
  generalize places : (exponent - leastQuantum).toNat = k
  simp only [leastQuantum] at places inRange
  split
  · -- The exponent is too large, and so is the number.
    rename_i large
    have full : hidden ≤ mantissa := filled.resolve_right (by omega)
    rw [Nat.min_eq_right (by simp only [hidden, infinityBits] at *; omega)]
    cases sign <;> rfl
  rename_i fits
  split
  · rename_i normal
    have full : hidden ≤ mantissa := by
      have : mantissa.log2 = 52 := by simpa [Format.mantissaBits] using normal
      exact ((Nat.log2_eq_iff positive.ne').mp this).1
    rw [Nat.min_eq_left (by simp only [hidden, infinityBits] at *; omega), pattern]
    congr 1
    · congr 1
      simp only [hidden] at *
      omega
    · apply BitVec.eq_of_toNat_eq
      simp only [BitVec.toNat_ofNat, hidden]
      omega
  · rename_i subnormal
    have less : mantissa < hidden := by
      by_contra full
      apply subnormal
      have : mantissa.log2 = 52 := (Nat.log2_eq_iff positive.ne').mpr ⟨not_lt.mp full, short⟩
      simp [Format.mantissaBits, this]
    have none : k = 0 := by
      have := filled.resolve_left (by omega)
      omega
    subst none
    rw [Nat.zero_mul, Nat.zero_add, Nat.min_eq_left (by simp only [hidden, infinityBits] at *; omega), pattern,
      Nat.div_eq_of_lt less]

theorem pack_parts (sign : Sign) {n : ℕ} (bound : n ≤ infinityBits) :
    UnpackedFloat.pack Format.binary64 (parts sign n) = pattern sign n := by
  obtain rfl | ⟨positive, finite⟩ | rfl := number_cases bound
  · cases sign <;> rfl
  · rw [parts_finite sign positive finite, pack_finite sign (isCanonical_at n), number_eq, Nat.min_eq_left bound]
  · cases sign <;> rfl

theorem toNat_implicit (mantissa : BitVec 52) : (1#1 ++ mantissa).toNat = hidden + mantissa.toNat := by
  rw [BitVec.toNat_append, ← Nat.shiftLeft_add_eq_or_of_lt mantissa.isLt]
  rfl

theorem finite_congr (sign : Sign) {m m' : ℕ} {e e' : ℤ} {positive : 0 < m} {positive' : 0 < m'} (same : m = m')
    (scale : e = e') : UnpackedFloat.finite sign m e positive = .finite sign m' e' positive' := by
  subst same scale
  rfl

/-- Unpacking undoes packing. -/
theorem unpack_pattern (sign : Sign) {n : ℕ} (bound : n ≤ infinityBits) :
    UnpackedFloat.unpack Format.binary64 (pattern sign n) = parts sign n := by
  obtain rfl | ⟨positive, finite⟩ | rfl := number_cases bound
  · cases sign <;> rfl
  swap
  · cases sign <;> rfl
  have exponent : (BitVec.ofNat 11 (n / hidden)).toNat = n / hidden := by
    rw [BitVec.toNat_ofNat]
    simp only [hidden, infinityBits] at *
    omega
  have mantissa : (BitVec.ofNat 52 n).toNat = n % hidden := BitVec.toNat_ofNat ..
  have bias : (Format.binary64.exponentBias : ℤ) = 1023 := rfl
  have notLast : BitVec.ofNat 11 (n / hidden) ≠ -1#11 := by
    intro same
    have := congrArg BitVec.toNat same
    rw [exponent] at this
    simp only [hidden, infinityBits, BitVec.neg_one_eq_allOnes, BitVec.toNat_allOnes] at *
    omega
  rw [parts_finite sign positive finite, UnpackedFloat.unpack, pattern]
  simp only [unpackMantissa_packComponents, unpackExponent_packComponents, unpackSign_packComponents,
    Sign.ofBitVec_toBitVec]
  rw [if_neg notLast]
  split
  · rename_i first
    have none : n / hidden = 0 := by
      have := congrArg BitVec.toNat first
      rwa [exponent] at this
    have whole : (BitVec.ofNat 52 n).toNat = n := by
      rw [mantissa]
      simp only [hidden] at *
      omega
    have nonzero : BitVec.ofNat 52 n ≠ 0#52 := fun zero =>
      positive.ne' (whole.symm.trans (congrArg BitVec.toNat zero))
    rw [dif_neg nonzero]
    apply finite_congr
    · rw [whole, mantissaAt, none]
      exact (Nat.sub_zero n).symm
    · rw [bias, exponentAt, none]
      rfl
  · rename_i normal
    have some : n / hidden ≠ 0 := fun none => normal (BitVec.eq_of_toNat_eq (exponent.trans none))
    apply finite_congr
    · rw [toNat_implicit, mantissa, mantissaAt]
      simp only [hidden] at *
      omega
    · rw [exponent, bias, exponentAt]
      simp only [leastQuantum, hidden] at *
      omega

theorem unpack_signed (sign : Sign) {n : ℕ} (bound : n ≤ infinityBits) :
    (signed sign n).toModel.unpack = parts sign n := by
  change UnpackedFloat.unpack Format.binary64 (UnpackedFloat.pack Format.binary64 (parts sign n)) = parts sign n
  rw [pack_parts sign bound, unpack_pattern sign bound]

theorem nan_eq : Float.nan = ⟨.pack .notANumber⟩ := by
  decide +kernel

theorem unpack_nan : Float.nan.toModel.unpack = .notANumber := by
  rw [nan_eq]
  rfl

/-- What the sign adds to a bit pattern. -/
def offset : Sign → ℕ
  | .positive => 0
  | .negative => signBit

theorem toNat_pattern (sign : Sign) {n : ℕ} (bound : n ≤ infinityBits) : (pattern sign n).toNat = offset sign + n := by
  rw [pattern, packComponents, BitVec.toNat_append, ← Nat.shiftLeft_add_eq_or_of_lt (BitVec.isLt _),
    BitVec.toNat_append, ← Nat.shiftLeft_add_eq_or_of_lt (BitVec.isLt _)]
  simp only [BitVec.toNat_ofNat, Nat.shiftLeft_eq]
  cases sign <;> simp only [Sign.toBitVec, offset, hidden, infinityBits, signBit] at * <;> simp <;> omega

theorem toBits_signed (sign : Sign) {n : ℕ} (bound : n ≤ infinityBits) :
    (signed sign n).toBits.toNat = offset sign + n := by
  change (UnpackedFloat.pack Format.binary64 (parts sign n)).toNat = _
  rw [pack_parts sign bound, toNat_pattern sign bound]

/-- Every double is the NaN, or it has a sign and a number. -/
theorem nan_or_signed (x : Float) : x = Float.nan ∨ ∃ sign n, n ≤ infinityBits ∧ x = signed sign n := by
  obtain ⟨bits, same⟩ : ∃ bits : BitVec Format.binary64.numBits, x.toBits.toBitVec = bits := ⟨_, rfl⟩
  have whole := packComponents_unpackSign_unpackExponent_unpackMantissa bits
  have valid : unpackExponent bits = -1#11 → unpackMantissa bits ≠ 0#52 → bits = packedNaN Format.binary64 :=
    same ▸ x.toModel.valid.eq_packedNaN
  generalize Sign.ofBitVec (unpackSign bits) = sign at whole
  generalize unpackExponent bits = exponent at whole valid
  generalize unpackMantissa bits = mantissa at whole valid
  have short : exponent.toNat < 2048 := exponent.isLt
  have short' : mantissa.toNat < hidden := mantissa.isLt
  by_cases bound : exponent.toNat * hidden + mantissa.toNat ≤ infinityBits
  · refine .inr ⟨sign, _, bound, Float.toBits_inj.mp (UInt64.toBitVec_inj.mp ?_)⟩
    change _ = UnpackedFloat.pack Format.binary64 (parts sign _)
    rw [pack_parts sign bound, same, ← whole, pattern]
    congr 1
    · apply BitVec.eq_of_toNat_eq
      simp only [BitVec.toNat_ofNat, hidden] at *
      omega
    · apply BitVec.eq_of_toNat_eq
      simp only [BitVec.toNat_ofNat, hidden] at *
      omega
  · rw [nan_eq]
    refine .inl (Float.toBits_inj.mp (UInt64.toBitVec_inj.mp (same.trans (valid ?_ ?_))))
    · apply BitVec.eq_of_toNat_eq
      simp only [hidden, infinityBits, BitVec.neg_one_eq_allOnes, BitVec.toNat_allOnes] at *
      omega
    · rintro rfl
      simp only [hidden, infinityBits, BitVec.toNat_ofNat] at *
      omega

section Sign

variable (sign : Sign) {n : ℕ} (bound : n ≤ infinityBits)
include bound

theorem neg_signed : -signed sign n = signed (-sign) n := by
  change (⟨.pack (signed sign n).toModel.unpack.neg⟩ : Float) = ⟨.pack (parts (-sign) n)⟩
  rw [unpack_signed sign bound]
  congr 2
  obtain rfl | ⟨positive, finite⟩ | rfl := number_cases bound
  · rfl
  · rw [parts_finite sign positive finite, parts_finite (-sign) positive finite]
    rfl
  · rfl

theorem abs_signed : (signed sign n).abs = signed .positive n := by
  change (⟨.pack (signed sign n).toModel.unpack.abs⟩ : Float) = ⟨.pack (parts .positive n)⟩
  rw [unpack_signed sign bound]
  congr 2
  obtain rfl | ⟨positive, finite⟩ | rfl := number_cases bound
  · rfl
  · rw [parts_finite sign positive finite, parts_finite .positive positive finite]
    rfl
  · rfl

theorem isNaN_signed : (signed sign n).isNaN = false := by
  change (signed sign n).toModel.unpack.isNaN = false
  rw [unpack_signed sign bound]
  obtain rfl | ⟨positive, finite⟩ | rfl := number_cases bound
  · rfl
  · rw [parts_finite sign positive finite]
    rfl
  · rfl

theorem isInf_signed : (signed sign n).isInf = decide (n = infinityBits) := by
  change (signed sign n).toModel.unpack.isInf = _
  rw [unpack_signed sign bound]
  obtain rfl | ⟨positive, finite⟩ | rfl := number_cases bound
  · rfl
  · rw [parts_finite sign positive finite, decide_eq_false finite.ne]
    rfl
  · rfl

end Sign

/-- There is only one NaN. -/
theorem eq_nan {x : Float} (nan : x.isNaN = true) : x = Float.nan := by
  obtain same | ⟨sign, n, bound, rfl⟩ := nan_or_signed x
  · exact same
  · rw [isNaN_signed sign bound] at nan
    cases nan

theorem toBits_abs_signed_ne_zero (sign : Sign) {n : ℕ} (bound : n ≤ infinityBits) (positive : 0 < n) :
    (signed sign n).abs.toBits ≠ 0 := by
  intro zero
  have bits := toBits_signed .positive bound
  rw [abs_signed sign bound] at zero
  rw [zero, offset, Nat.zero_add] at bits
  exact positive.ne bits

theorem lt_iff {x y : Float} : x < y ↔ x.toModel.unpack.compare y.toModel.unpack = some .lt := by
  change decide (x.toModel.unpack.lt y.toModel.unpack = true) = true ↔ _
  simp [UnpackedFloat.lt]

theorem le_iff {x y : Float} : x ≤ y ↔ (x.toModel.unpack.compare y.toModel.unpack).any (·.isLE) = true := by
  change decide (x.toModel.unpack.le y.toModel.unpack = true) = true ↔ _
  exact decide_eq_true_iff

/-- Numbers count exponents first and significands within one exponent. -/
theorem parts_lt {m n : ℕ} (less : m < n) :
    exponentAt m < exponentAt n ∨ exponentAt m = exponentAt n ∧ mantissaAt m < mantissaAt n := by
  unfold exponentAt mantissaAt
  simp only [hidden]
  omega

theorem compare_finite (m n : ℕ) :
    (compare (exponentAt m) (exponentAt n)).then (compare (mantissaAt m) (mantissaAt n)) = compare m n := by
  obtain less | rfl | more := lt_trichotomy m n
  · rw [compare_lt_iff_lt.mpr less]
    obtain earlier | ⟨same, smaller⟩ := parts_lt less
    · rw [compare_lt_iff_lt.mpr earlier]
      rfl
    · rw [same, compare_lt_iff_lt.mpr smaller, compare_eq_iff_eq.mpr rfl]
      rfl
  · simp
  · rw [compare_gt_iff_gt.mpr more]
    obtain earlier | ⟨same, smaller⟩ := parts_lt more
    · rw [compare_gt_iff_gt.mpr earlier]
      rfl
    · rw [same, compare_gt_iff_gt.mpr smaller, compare_eq_iff_eq.mpr rfl]
      rfl

theorem compare_positive {m n : ℕ} (bound : m ≤ infinityBits) (bound' : n ≤ infinityBits) :
    (parts .positive m).compare (parts .positive n) = some (compare m n) := by
  have last : 0 < infinityBits := by decide
  obtain rfl | ⟨positive, finite⟩ | rfl := number_cases bound <;>
    obtain rfl | ⟨positive', finite'⟩ | rfl := number_cases bound'
  · rfl
  · rw [compare_lt_iff_lt.mpr positive', parts_finite .positive positive' finite']
    rfl
  · rw [compare_lt_iff_lt.mpr last]
    rfl
  · rw [compare_gt_iff_gt.mpr positive, parts_finite .positive positive finite]
    rfl
  · rw [parts_finite .positive positive finite, parts_finite .positive positive' finite', ← compare_finite]
    rfl
  · rw [compare_lt_iff_lt.mpr finite, parts_finite .positive positive finite]
    rfl
  · rfl
  · rw [compare_gt_iff_gt.mpr finite', parts_finite .positive positive' finite']
    rfl
  · rw [compare_eq_iff_eq.mpr (rfl : infinityBits = infinityBits)]
    rfl

theorem compare_nan (x : UnpackedFloat) : x.compare .notANumber = none := by
  cases x <;> rfl

/-- What has a sign is less than what has none and is not zero. -/
theorem compare_negative {m n : ℕ} (bound : m ≤ infinityBits) (bound' : n ≤ infinityBits) (nonzero : 0 < n) :
    (parts .negative m).compare (parts .positive n) = some .lt ∧
      (parts .positive n).compare (parts .negative m) = some .gt := by
  obtain rfl | ⟨positive, finite⟩ | rfl := number_cases bound <;>
    obtain rfl | ⟨positive', finite'⟩ | rfl := number_cases bound'
  · cases nonzero
  · rw [parts_finite .positive positive' finite']
    exact ⟨rfl, rfl⟩
  · exact ⟨rfl, rfl⟩
  · cases nonzero
  · rw [parts_finite .negative positive finite, parts_finite .positive positive' finite']
    exact ⟨rfl, rfl⟩
  · rw [parts_finite .negative positive finite]
    exact ⟨rfl, rfl⟩
  · cases nonzero
  · rw [parts_finite .positive positive' finite']
    exact ⟨rfl, rfl⟩
  · exact ⟨rfl, rfl⟩

variable {m n : ℕ}

theorem signed_lt_signed (bound : m ≤ infinityBits) (bound' : n ≤ infinityBits) :
    signed .positive m < signed .positive n ↔ m < n := by
  rw [lt_iff, unpack_signed _ bound, unpack_signed _ bound', compare_positive bound bound', Option.some.injEq,
    compare_lt_iff_lt]

theorem signed_le_signed (bound : m ≤ infinityBits) (bound' : n ≤ infinityBits) :
    signed .positive m ≤ signed .positive n ↔ m ≤ n := by
  rw [le_iff, unpack_signed _ bound, unpack_signed _ bound', compare_positive bound bound', Option.any_some,
    Nat.isLE_compare]

/-- The doubles from a positive one upwards are those with its number or a greater one. -/
theorem signed_le_iff {x : Float} (bound : n ≤ infinityBits) (nonzero : 0 < n) :
    signed .positive n ≤ x ↔ ∃ m, n ≤ m ∧ m ≤ infinityBits ∧ x = signed .positive m := by
  constructor
  · intro le
    obtain rfl | ⟨sign, m, bound', rfl⟩ := nan_or_signed x
    · rw [le_iff, unpack_nan, compare_nan] at le
      cases le
    · cases sign with
      | positive => exact ⟨m, (signed_le_signed bound bound').mp le, bound', rfl⟩
      | negative =>
          rw [le_iff, unpack_signed _ bound, unpack_signed _ bound', (compare_negative bound' bound nonzero).2] at le
          cases le
  · rintro ⟨m, le, bound', rfl⟩
    exact (signed_le_signed bound bound').mpr le

/-- A double other than the NaN lies below a positive one, or from there upwards. -/
theorem lt_signed_iff {x : Float} (bound : n ≤ infinityBits) (nonzero : 0 < n) (number : x.isNaN = false) :
    x < signed .positive n ↔ ¬signed .positive n ≤ x := by
  obtain rfl | ⟨sign, m, bound', rfl⟩ := nan_or_signed x
  · cases number
  · cases sign with
    | positive => rw [signed_lt_signed bound' bound, signed_le_signed bound bound', not_le]
    | negative =>
        rw [lt_iff, le_iff, unpack_signed _ bound, unpack_signed _ bound', (compare_negative bound' bound nonzero).1,
          (compare_negative bound' bound nonzero).2]
        decide

theorem signed_le_trans {x y : Float} (bound : n ≤ infinityBits) (nonzero : 0 < n) (le : signed .positive n ≤ x)
    (le' : x ≤ y) : signed .positive n ≤ y := by
  obtain ⟨m, atLeast, bound', rfl⟩ := (signed_le_iff bound nonzero).mp le
  obtain ⟨m', atLeast', bound'', rfl⟩ := (signed_le_iff bound' (nonzero.trans_le atLeast)).mp le'
  exact (signed_le_signed bound bound'').mpr (atLeast.trans atLeast')

theorem signed_le_antisymm {x : Float} (bound : n ≤ infinityBits) (nonzero : 0 < n) (le : signed .positive n ≤ x)
    (ge : x ≤ signed .positive n) : x = signed .positive n := by
  obtain ⟨m, atLeast, bound', rfl⟩ := (signed_le_iff bound nonzero).mp le
  rw [Nat.le_antisymm ((signed_le_signed bound' bound).mp ge) atLeast]

/-- The NaN is not comparable to anything. -/
theorem isNaN_of_le {x y : Float} (le : x ≤ y) : x.isNaN = false ∧ y.isNaN = false := by
  obtain rfl | ⟨sign, m, bound, rfl⟩ := nan_or_signed x
  · rw [le_iff, unpack_nan, UnpackedFloat.compare] at le
    cases le
  obtain rfl | ⟨sign', n, bound', rfl⟩ := nan_or_signed y
  · rw [le_iff, unpack_nan, compare_nan] at le
    cases le
  · exact ⟨isNaN_signed sign bound, isNaN_signed sign' bound'⟩

theorem le_of_lt {x y : Float} (less : x < y) : x ≤ y := by
  rw [le_iff, lt_iff.mp less]
  rfl

theorem zero_eq : (0 : Float) = signed .positive 0 := by
  decide +kernel

theorem ofBits_ofNat (bound : n ≤ infinityBits) : Float.ofBits (UInt64.ofNat n) = signed .positive n := by
  have bits : (UInt64.ofNat n).toBitVec = pattern .positive n := by
    apply BitVec.eq_of_toNat_eq
    rw [toNat_pattern .positive bound, UInt64.toNat_toBitVec, UInt64.toNat_ofNat', offset, Nat.zero_add, Nat.mod_eq_of_lt]
    simp only [infinityBits, hidden] at bound
    omega
  change (⟨.pack (UnpackedFloat.unpack Format.binary64 (UInt64.ofNat n).toBitVec)⟩ : Float) = ⟨.pack (parts .positive n)⟩
  rw [bits, unpack_pattern .positive bound]

/-- The double nearest to a value is the one with its number. -/
theorem nearest_eq (value : ℚ) : nearest value = signed .positive (number value) := by
  unfold nearest number steps
  split
  · rw [Nat.zero_min]
    exact zero_eq
  · have scale : scaled 2 1 (quantum value) = 2 ^ quantum value := by
      rw [scaled_eq]
      simp
    rw [scale]
    exact ofBits_ofNat (Nat.min_le_right _ _)

theorem magnitude_signed (sign : Sign) (finite : n < infinityBits) : magnitude (signed sign n) = valueAt n := by
  rw [magnitude, abs_signed sign finite.le, toBits_signed .positive finite.le, offset, Nat.zero_add, valueAt, mantissaAt,
    exponentAt]
  split
  · rename_i first
    have less : n % hidden = n := Nat.mod_eq_of_lt (by simp only [hidden] at *; omega)
    rw [scaled_eq, first, less]
    simp
  · rename_i later
    rw [scaled_eq]
    simp only [hidden] at *
    congr 2
    · omega
    · omega

/-- Every double is the nearest one to its own value. -/
theorem nearest_valueAt (bound : n ≤ infinityBits) : nearest (valueAt n) = signed .positive n := by
  rw [nearest_eq, number_valueAt bound]

theorem nearest_mono {v w : ℚ} (le : v ≤ w) : nearest v ≤ nearest w := by
  rw [nearest_eq, nearest_eq, signed_le_signed (number_le v) (number_le w)]
  exact number_mono le

end Reckoner.Binary64
