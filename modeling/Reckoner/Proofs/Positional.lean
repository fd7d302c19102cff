import Reckoner.Proofs.Doubles
import Reckoner.Proofs.Numerals

/-! # Reading numerals back

Digits with a point denote the same value however many zeros stand around them. So the positional text of a decimal is read
as a decimal of the same value, and the text of a double in the positional range is read as that double.
-/

namespace Reckoner

/-- The value of digits with a point before the digit number `point`. -/
def pointed (digits : List Char) (point : ℤ) : ℚ := Nat.ofDigitChars 10 digits 0 * 10 ^ (point - digits.length)

theorem pointed_zeros_append (n : ℕ) (digits : List Char) (point : ℤ) :
    pointed (List.replicate n '0' ++ digits) point = pointed digits (point - n) := by
  rw [pointed, pointed, Nat.ofDigitChars_append, Nat.ofDigitChars_replicate_zero, Nat.mul_zero, List.length_append,
    List.length_replicate]
  congr 2
  push_cast
  ring

theorem pointed_append_zeros (digits : List Char) (n : ℕ) (point : ℤ) :
    pointed (digits ++ List.replicate n '0') point = pointed digits point := by
  have exponent : point - digits.length = n + (point - (digits.length + n : ℕ)) := by
    push_cast
    ring
  rw [pointed, pointed, Nat.ofDigitChars_append, Nat.ofDigitChars_replicate_zero, List.length_append,
    List.length_replicate, exponent, zpow_add₀ (by norm_num), zpow_natCast]
  push_cast
  ring

theorem Decimal.value_eq (d : Decimal) : d.value = d.digits * 10 ^ d.exponent := by
  rw [Decimal.value, scaled_eq]
  norm_num

theorem Decimal.pointed_toDigits (d : Decimal) :
    pointed (Nat.toDigits 10 d.digits) ((Nat.toDigits 10 d.digits).length + d.exponent) = d.value := by
  rw [pointed, Nat.ofDigitChars_ten_toDigits, add_sub_cancel_left, Decimal.value_eq]

namespace Numeral

theorem trimmed_append (digits : List Char) : ∃ n, digits = trimmed digits ++ List.replicate n '0' := by
  refine ⟨(digits.reverse.takeWhile (· == '0')).length, ?_⟩
  have zeros : digits.reverse.takeWhile (· == '0') = List.replicate (digits.reverse.takeWhile (· == '0')).length '0' :=
    List.eq_replicate_of_mem fun c member => beq_iff_eq.mp (List.all_eq_true.mp List.all_takeWhile c member)
  have parts := congrArg List.reverse (List.takeWhile_append_dropWhile (p := (· == '0')) (l := digits.reverse))
  rw [zeros] at parts
  rw [List.reverse_append, List.reverse_replicate, List.reverse_reverse] at parts
  exact parts.symm

theorem pointed_trimmed (digits : List Char) (point : ℤ) : pointed (trimmed digits) point = pointed digits point := by
  obtain ⟨n, same⟩ := trimmed_append digits
  conv_rhs => rw [same, pointed_append_zeros]

theorem pointed_orZero_append (whole rest : List Char) :
    pointed ((if whole.isEmpty then ['0'] else whole) ++ rest) (if whole.isEmpty then ['0'] else whole).length =
      pointed (whole ++ rest) whole.length := by
  cases whole with
  | nil => exact pointed_zeros_append 1 rest 1
  | cons => rfl

theorem pointed_append_orZero (before fraction : List Char) (point : ℤ) :
    pointed (before ++ if fraction.isEmpty then ['0'] else fraction) point = pointed (before ++ fraction) point := by
  cases fraction with
  | nil => exact (pointed_append_zeros before 1 point).trans (congrArg (pointed · point) before.append_nil.symm)
  | cons => rfl

/-- Zeros fill the digits up to the point, whichever side of them it lies on. -/
theorem pointed_filled (digits : List Char) (point : ℤ) :
    pointed ((digits.take point.toNat ++ List.replicate (point.toNat - digits.length) '0') ++
      (List.replicate (-point).toNat '0' ++ digits.drop point.toNat)) point.toNat = pointed digits point := by
  obtain inside | before := le_or_gt 0 point
  · have same : (point.toNat : ℤ) = point := Int.toNat_of_nonneg inside
    have noZeros : (-point).toNat = 0 := by omega
    rw [noZeros, List.replicate_zero, List.nil_append, same]
    obtain short | long := le_total point.toNat digits.length
    · rw [Nat.sub_eq_zero_of_le short, List.replicate_zero, List.append_nil, List.take_append_drop]
    · rw [List.take_of_length_le long, List.drop_of_length_le long, List.append_nil, pointed_append_zeros]
  · have none : point.toNat = 0 := by omega
    rw [none, List.take_zero, Nat.zero_sub, List.replicate_zero, List.drop_zero, List.nil_append, List.nil_append,
      pointed_zeros_append]
    congr 1
    omega

/-- Digits with a point among them are written with a digit on either side of it, and with the same value. -/
theorem positional_eq {digits : List Char} (all : ∀ c ∈ digits, c.isDigit = true) (point : ℤ) :
    ∃ whole fraction, positional digits point = whole ++ '.' :: fraction ∧ IsDigits whole ∧ IsDigits fraction ∧
      pointed (whole ++ fraction) whole.length = pointed digits point := by
  have isWhole : ∀ c ∈ digits.take point.toNat ++ List.replicate (point.toNat - digits.length) '0', c.isDigit = true :=
    List.forall_mem_append.mpr ⟨fun c member => all c (List.mem_of_mem_take member), isDigit_zeros _⟩
  have isFraction : ∀ c ∈ List.replicate (-point).toNat '0' ++ digits.drop point.toNat, c.isDigit = true :=
    List.forall_mem_append.mpr ⟨isDigit_zeros _, fun c member => all c (List.mem_of_mem_drop member)⟩
  refine ⟨_, _, rfl, isDigits_orZero isWhole, isDigits_orZero isFraction, ?_⟩
  have length : (digits.take point.toNat ++ List.replicate (point.toNat - digits.length) '0').length = point.toNat := by
    rw [List.length_append, List.length_take, List.length_replicate]
    omega
  rw [pointed_append_orZero, pointed_orZero_append, length, pointed_filled]

end Numeral

namespace Decimal

theorem read?_point {whole fraction : List Char} (isWhole : IsDigits whole) (isFraction : IsDigits fraction) :
    read? (whole ++ '.' :: fraction) = some (ofDigits (whole ++ fraction) fraction.length) := by
  have noDigit : ¬('.' : Char).isDigit = true := by decide
  have filled : (whole ++ fraction).isEmpty = false := by simp [isWhole.filled]
  have all : fraction.all Char.isDigit = true := List.all_eq_true.mpr isFraction.digits
  rw [read?, List.takeWhile_append_of_pos isWhole.digits, List.dropWhile_append_of_pos isWhole.digits,
    List.takeWhile_cons_of_neg noDigit, List.dropWhile_cons_of_neg noDigit, List.append_nil]
  dsimp only
  rw [if_pos (by simp [filled, all])]

theorem value_ofDigits (whole fraction : List Char) :
    (ofDigits (whole ++ fraction) fraction.length).value = pointed (whole ++ fraction) whole.length := by
  rw [ofDigits, value_eq, pointed, List.length_append]
  congr 2
  push_cast
  ring

/-- The positional text of a decimal has its value. -/
theorem positional_trimmed (d : Decimal) :
    ∃ whole fraction, Numeral.positional (Numeral.trimmed (Nat.toDigits 10 d.digits))
        ((Nat.toDigits 10 d.digits).length + d.exponent) = whole ++ '.' :: fraction ∧
      IsDigits whole ∧ IsDigits fraction ∧ (ofDigits (whole ++ fraction) fraction.length).value = d.value := by
  have all : ∀ c ∈ Numeral.trimmed (Nat.toDigits 10 d.digits), c.isDigit = true := by
    intro c member
    obtain ⟨n, same⟩ := Numeral.trimmed_append (Nat.toDigits 10 d.digits)
    exact (isDigits_toDigits d.digits).digits c (same ▸ List.mem_append_left _ member)
  obtain ⟨whole, fraction, written, isWhole, isFraction, value⟩ :=
    Numeral.positional_eq all ((Nat.toDigits 10 d.digits).length + d.exponent)
  refine ⟨whole, fraction, written, isWhole, isFraction, ?_⟩
  rw [value_ofDigits, value, Numeral.pointed_trimmed, pointed_toDigits]

theorem value_exact {value : ℚ} {k : ℕ} (nonneg : 0 ≤ value) (power : value.den = 2 ^ k) : (exact value).value = value := by
  have numerator : (value.num.toNat : ℚ) = value.num := by
    rw [← Int.cast_natCast, Int.toNat_of_nonneg (Rat.num_nonneg.mpr nonneg)]
  have quotient : value = value.num / 2 ^ k := by
    conv_lhs => rw [← Rat.num_div_den value, power]
    push_cast
    rfl
  have tens : (10 : ℚ) ^ k = 2 ^ k * 5 ^ k := by
    rw [← mul_pow]
    norm_num
  rw [exact, value_eq, power, Nat.log2_two_pow]
  dsimp only [Nat.pow_eq]
  push_cast
  rw [zpow_neg, zpow_natCast, tens, numerator]
  conv_rhs => rw [quotient]
  field_simp

theorem den_valueAt (n : ℕ) : ∃ k, (Binary64.valueAt n).den = 2 ^ k := by
  rw [Binary64.valueAt]
  cases Binary64.exponentAt n with
  | ofNat e =>
      have whole : (Binary64.mantissaAt n * 2 ^ Int.ofNat e : ℚ) = (Binary64.mantissaAt n * 2 ^ e : ℕ) := by
        push_cast
        simp
      exact ⟨0, by rw [whole, Rat.den_natCast, pow_zero]⟩
  | negSucc e =>
      have quotient : (Binary64.mantissaAt n * 2 ^ Int.negSucc e : ℚ) =
          Rat.divInt (Binary64.mantissaAt n) ((2 ^ (e + 1) : ℕ) : ℤ) := by
        rw [Rat.divInt_eq_div, zpow_negSucc, div_eq_mul_inv]
        push_cast
        rfl
      rw [quotient]
      obtain ⟨k, -, power⟩ := (Nat.dvd_prime_pow Nat.prime_two).mp (Int.natCast_dvd_natCast.mp (Rat.den_dvd _ _))
      exact ⟨k, power⟩

variable {x : Float}

/-- The shortest decimal of a finite double reads back as that double without its sign. -/
theorem toFloat_shortest (number : x.isNaN = false) (finite : x.isInf = false) : (shortest x).toFloat = x.abs := by
  simp only [shortest]
  cases found : (List.range mostDigits).findSome? _ with
  | some d =>
      obtain ⟨more, -, onGrid⟩ := List.exists_of_findSome?_eq_some found
      have reads := readsAs_of_onGrid? onGrid
      rw [readsAs, beq_iff_eq] at reads
      exact Float.toBits_inj.mp reads
  | none =>
      obtain rfl | ⟨sign, n, bound, rfl⟩ := Binary64.nan_or_signed x
      · cases number
      · rw [Binary64.isInf_signed sign bound, decide_eq_false_iff_not] at finite
        have less := lt_of_le_of_ne bound finite
        obtain ⟨k, power⟩ := den_valueAt n
        rw [Option.getD_none, toFloat, Binary64.magnitude_signed sign less, value_exact (Binary64.valueAt_nonneg n) power,
          Binary64.nearest_valueAt bound, Binary64.abs_signed sign bound]

/-- The leading digit of a decimal tells its order of magnitude. -/
theorem value_bounds {d : Decimal} (positive : 0 < d.digits) :
    10 ^ ((Nat.toDigits 10 d.digits).length + d.exponent - 1) ≤ d.value ∧
      d.value < 10 ^ ((Nat.toDigits 10 d.digits).length + d.exponent) := by
  have filled : 0 < (Nat.toDigits 10 d.digits).length := Nat.length_toDigits_pos
  have upper : d.digits < 10 ^ (Nat.toDigits 10 d.digits).length :=
    (Nat.length_toDigits_le_iff (by decide) filled).mp le_rfl
  have lower : 10 ^ ((Nat.toDigits 10 d.digits).length - 1) ≤ d.digits := by
    obtain one | more := Nat.lt_or_ge 1 (Nat.toDigits 10 d.digits).length
    · by_contra less
      have := (Nat.length_toDigits_le_iff (by decide) (by omega)).mpr (not_le.mp less)
      omega
    · rw [Nat.sub_eq_zero_of_le more]
      exact positive
  generalize (Nat.toDigits 10 d.digits).length = length at *
  rw [value_eq]
  constructor
  · have split : (length + d.exponent - 1 : ℤ) = (length - 1 : ℕ) + d.exponent := by omega
    rw [split, zpow_add₀ (by norm_num), zpow_natCast]
    gcongr
    exact_mod_cast lower
  · rw [zpow_add₀ (by norm_num), zpow_natCast]
    gcongr
    exact_mod_cast upper

end Decimal

namespace Numeral

open Binary64

/-- The range in which numbers are written without an exponent. -/
def IsPositional (x : Float) : Prop := 0.0001 ≤ x ∧ x < 1e16

instance (x : Float) : Decidable (IsPositional x) := inferInstanceAs (Decidable (_ ∧ _))

theorem least_eq : (0.0001 : Float) = nearest (1 / 10000) := by decide +kernel

theorem bound_eq : (1e16 : Float) = nearest 10000000000000000 := by decide +kernel

/-- A number in the positional range has no sign, and the shortest decimal reads back as it. -/
theorem IsPositional.signed {x : Float} (h : IsPositional x) :
    ∃ n, 0 < n ∧ n < infinityBits ∧ x = Binary64.signed .positive n := by
  obtain ⟨atLeast, below⟩ := h
  have some : 0 < number (1 / 10000) := by decide +kernel
  have some' : 0 < number 10000000000000000 := by decide +kernel
  rw [least_eq, nearest_eq] at atLeast
  rw [bound_eq, nearest_eq] at below
  obtain ⟨n, le, bound, rfl⟩ := (signed_le_iff (number_le _) some).mp atLeast
  refine ⟨n, some.trans_le le, lt_of_le_of_ne bound ?_, rfl⟩
  rintro rfl
  have notAbove := (lt_signed_iff (number_le _) some' (isNaN_signed .positive bound)).mp below
  exact notAbove ((signed_le_signed (number_le _) bound).mpr (number_le _))

theorem IsPositional.nearest_shortest {x : Float} (h : IsPositional x) : nearest (Decimal.shortest x).value = x := by
  obtain ⟨n, -, finite, rfl⟩ := h.signed
  have reads := Decimal.toFloat_shortest (isNaN_signed .positive finite.le)
    ((isInf_signed .positive finite.le).trans (decide_eq_false finite.ne))
  rwa [abs_signed .positive finite.le] at reads

theorem IsPositional.digits_pos {x : Float} (h : IsPositional x) : 0 < (Decimal.shortest x).digits := by
  obtain ⟨n, positive, finite, rfl⟩ := h.signed
  exact Decimal.digits_shortest_pos (toBits_abs_signed_ne_zero .positive finite.le positive)

/-- The leading digit of a number in the positional range is at most four places after the point and sixteen before it. -/
theorem IsPositional.first {x : Float} (h : IsPositional x) :
    -4 ≤ (Nat.toDigits 10 (Decimal.shortest x).digits).length + (Decimal.shortest x).exponent - 1 ∧
      (Nat.toDigits 10 (Decimal.shortest x).digits).length + (Decimal.shortest x).exponent - 1 < 16 := by
  obtain ⟨lower, upper⟩ := Decimal.value_bounds h.digits_pos
  have reads := h.nearest_shortest
  constructor
  · by_contra small
    have tiny : (Decimal.shortest x).value ≤ 1 / 10000 :=
      upper.le.trans ((zpow_le_zpow_right₀ (by norm_num) (by omega : _ ≤ (-4 : ℤ))).trans_eq (by norm_num))
    -- Only the least number of the range is left, and its shortest decimal is not that small.
    have atMost := nearest_mono tiny
    rw [reads] at atMost
    have same : x = 0.0001 := by
      have atLeast := h.1
      rw [least_eq, nearest_eq] at *
      exact signed_le_antisymm (number_le _) (by decide +kernel) atLeast atMost
    have known : Decimal.shortest 0.0001 = ⟨1, -4⟩ := by decide +kernel
    rw [same, known] at small
    exact small (by decide)
  · by_contra large
    have huge : 10000000000000000 ≤ (Decimal.shortest x).value :=
      (((by norm_num : (10000000000000000 : ℚ) = 10 ^ (16 : ℤ))).trans_le
        (zpow_le_zpow_right₀ (by norm_num) (by omega))).trans lower
    have atLeast := nearest_mono huge
    rw [reads] at atLeast
    have below := h.2
    rw [bound_eq, nearest_eq] at below
    rw [nearest_eq] at atLeast
    exact (lt_signed_iff (number_le _) (by decide +kernel) (isNaN_of_le atLeast).2).mp below atLeast

/-- A number without a sign that is written without an exponent. -/
def IsPlain (x : Float) : Prop := x = 0 ∨ IsPositional x

instance (x : Float) : Decidable (IsPlain x) := inferInstanceAs (Decidable (_ ∨ _))

theorem IsPlain.signed {x : Float} (h : IsPlain x) : ∃ n < infinityBits, x = Binary64.signed .positive n := by
  obtain rfl | range := h
  · exact ⟨0, by decide, zero_eq⟩
  · obtain ⟨n, -, finite, same⟩ := range.signed
    exact ⟨n, finite, same⟩

/-- A plain number is written as digits with a point among them, and it is the double nearest to their value. -/
theorem IsPlain.magnitude_eq {x : Float} (h : IsPlain x) :
    ∃ whole fraction, magnitude x = whole ++ '.' :: fraction ∧ IsDigits whole ∧ IsDigits fraction ∧
      (Decimal.ofDigits (whole ++ fraction) fraction.length).toFloat = x := by
  obtain rfl | range := h
  · have isZero : IsDigits ['0'] := isDigits_toDigits 0
    exact ⟨['0'], ['0'], by decide +kernel, isZero, isZero, by decide +kernel⟩
  · obtain ⟨whole, fraction, written, isWhole, isFraction, value⟩ := Decimal.positional_trimmed (Decimal.shortest x)
    refine ⟨whole, fraction, ?_, isWhole, isFraction, ?_⟩
    · obtain ⟨atLeast, below⟩ := range.first
      obtain ⟨n, -, finite, same⟩ := range.signed
      have number : x.isNaN = false := same ▸ isNaN_signed .positive finite.le
      have finite : x.isInf = false := same ▸ (isInf_signed .positive finite.le).trans (decide_eq_false finite.ne)
      rw [magnitude, number, finite, ← written]
      simp [ofDecimal, style, atLeast, below]
    · rw [Decimal.toFloat, value, range.nearest_shortest]

section Sign

variable {n : ℕ} (bound : n ≤ infinityBits)
include bound

theorem toList_write_positive : (write (Binary64.signed .positive n)).toList = magnitude (Binary64.signed .positive n) := by
  have noSign : isNegative (Binary64.signed .positive n) = false := by
    rw [isNegative, isNaN_signed .positive bound, toBits_signed .positive bound]
    simp only [offset, infinityBits, signBit, Binary64.hidden] at *
    simp
    omega
  rw [write, noSign, String.toList_ofList]
  rfl

/-- The sign is written before the text of the number without it. -/
theorem toList_write_negative :
    (write (Binary64.signed .negative n)).toList = '-' :: magnitude (Binary64.signed .positive n) := by
  have sign : isNegative (Binary64.signed .negative n) = true := by
    rw [isNegative, isNaN_signed .negative bound, toBits_signed .negative bound]
    simp [offset]
  have same : (Binary64.signed .negative n).abs.toBits = (Binary64.signed .positive n).abs.toBits := by
    rw [abs_signed .negative bound, abs_signed .positive bound]
  have unsigned : magnitude (Binary64.signed .negative n) = magnitude (Binary64.signed .positive n) := by
    simp only [magnitude, isNaN_signed .negative bound, isNaN_signed .positive bound, isInf_signed .negative bound,
      isInf_signed .positive bound, Decimal.shortest_congr same]
  rw [write, sign, String.toList_ofList, unsigned]
  rfl

end Sign

end Numeral

end Reckoner
