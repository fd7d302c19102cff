import Reckoner.Proofs.Positional

/-! # Numerals with an exponent

An exponent that is cut down while it is read leaves the double what it was, because the decimal is out of range on either
side of the cut. So the text of every double is read as that double, and no two doubles have the same text.
-/

namespace Reckoner

open Binary64 (signed infinityBits)

theorem ofDigitChars_lt {digits : List Char} (all : ∀ c ∈ digits, c.isDigit = true) :
    Nat.ofDigitChars 10 digits 0 < 10 ^ digits.length := by
  induction digits using List.reverseRecOn with
  | nil => decide
  | append_singleton rest c ih =>
      obtain ⟨restAll, digit⟩ := List.forall_mem_append.mp all
      have small := ih restAll
      have last : c.toNat - '0'.toNat < 10 := by
        obtain ⟨-, most⟩ := Char.isDigit_iff_toNat.mp (digit c List.mem_cons_self)
        have bounds : '0'.toNat = 48 ∧ '9'.toNat = 57 := ⟨rfl, rfl⟩
        omega
      rw [Nat.ofDigitChars_append, Nat.ofDigitChars_cons, Nat.ofDigitChars_nil, List.length_append, List.length_singleton,
        pow_succ]
      omega

namespace Decimal

/-- A decimal this small is nearest to zero. -/
theorem toFloat_tiny {d : Decimal} {length : ℕ} (short : d.digits < 10 ^ length) (low : length + d.exponent ≤ -400) :
    d.toFloat = signed .positive 0 := by
  have tiny : d.value ≤ 10 ^ (-400 : ℤ) := by
    rw [value_eq]
    calc (d.digits : ℚ) * 10 ^ d.exponent ≤ 10 ^ length * 10 ^ d.exponent := by
          gcongr
          exact_mod_cast short.le
      _ = 10 ^ (length + d.exponent) := by rw [zpow_add₀ (by norm_num), zpow_natCast]
      _ ≤ 10 ^ (-400 : ℤ) := zpow_le_zpow_right₀ (by norm_num) low
  have zero : Binary64.number (10 ^ (-400 : ℤ)) = 0 := by decide +kernel
  have none : Binary64.number d.value = 0 := Nat.le_zero.mp (zero ▸ Binary64.number_mono tiny)
  rw [toFloat, Binary64.nearest_eq, none]

/-- A decimal this large is infinite. -/
theorem toFloat_huge {d : Decimal} (positive : 0 < d.digits) (high : 400 ≤ d.exponent) :
    d.toFloat = signed .positive infinityBits := by
  have huge : 10 ^ (400 : ℤ) ≤ d.value := by
    rw [value_eq]
    calc (10 : ℚ) ^ (400 : ℤ) ≤ 10 ^ d.exponent := zpow_le_zpow_right₀ (by norm_num) high
      _ = 1 * 10 ^ d.exponent := (one_mul _).symm
      _ ≤ d.digits * 10 ^ d.exponent := by
          gcongr
          exact_mod_cast positive
  have infinite : Binary64.number (10 ^ (400 : ℤ)) = infinityBits := by decide +kernel
  have last : Binary64.number d.value = infinityBits :=
    Nat.le_antisymm (Binary64.number_le _) (infinite.symm.trans_le (Binary64.number_mono huge))
  rw [toFloat, Binary64.nearest_eq, last]

/-- Digits with a point after the first of them, and an exponent. -/
theorem value_leading (lead : Char) (rest : List Char) (point : ℤ) :
    value ⟨Nat.ofDigitChars 10 (lead :: rest) 0, -rest.length + (point - 1)⟩ = pointed (lead :: rest) point := by
  rw [value_eq, pointed, List.length_cons]
  congr 2
  push_cast
  ring

/-- An exponent is cut down only where the decimal is zero or out of range anyway. -/
theorem toFloat_clamp {digits places length : ℕ} (short : digits < 10 ^ length) (inside : places ≤ length)
    (exponent : ℤ) :
    toFloat ⟨digits, -places + Numeral.clamp length exponent⟩ = toFloat ⟨digits, -places + exponent⟩ := by
  obtain rfl | positive := Nat.eq_zero_or_pos digits
  · rw [toFloat, toFloat, value, value, scaled_zero, scaled_zero]
  have cases : exponent < -(length + 400) ∧ Numeral.clamp length exponent = -(length + 400) ∨
      Numeral.clamp length exponent = exponent ∨
      length + 400 < exponent ∧ Numeral.clamp length exponent = length + 400 := by
    unfold Numeral.clamp
    omega
  obtain ⟨low, cut⟩ | same | ⟨high, cut⟩ := cases
  · rw [cut, toFloat_tiny short (by dsimp only; omega), toFloat_tiny short (by dsimp only; omega)]
  · rw [same]
  · rw [cut, toFloat_huge positive (by dsimp only; omega), toFloat_huge positive (by dsimp only; omega)]

end Decimal

namespace Numeral

theorem exponent?_exponentDigits (style : Style) (exponent : ℤ) :
    exponent? (exponentDigits style exponent) = some exponent := by
  obtain ⟨filled, digits⟩ := isDigits_padded style.exponentWidth exponent.natAbs
  have accepted : ((Text.padded 10 style.exponentWidth exponent.natAbs).isEmpty ||
      !(Text.padded 10 style.exponentWidth exponent.natAbs).all Char.isDigit) = false := by
    simpa [filled] using digits
  have value : Nat.ofDigitChars 10 (Text.padded 10 style.exponentWidth exponent.natAbs) 0 = exponent.natAbs := by
    rw [Text.padded, Nat.ofDigitChars_append, Nat.ofDigitChars_replicate_zero, Nat.mul_zero,
      Nat.ofDigitChars_ten_toDigits]
  rw [exponentDigits, exponent?, accepted, value]
  obtain negative | nonneg := lt_or_ge exponent 0
  · simp [negative, abs_of_neg]
  · simp [not_lt.mpr nonneg, abs_of_nonneg nonneg]

/-- A text without an exponent that is read as `digits` with `places` of them after the point. -/
structure IsSignificand (text digits : List Char) (places : ℕ) : Prop where
  /-- No text of an infinity or of the NaN starts with a digit. -/
  head : ∃ lead rest, text = lead :: rest ∧ lead.isDigit = true
  /-- The first `e` of a numeral starts its exponent. -/
  unmarked : ∀ c ∈ text, c ≠ 'e'
  allDigits : ∀ c ∈ digits, c.isDigit = true
  /-- The length of the text decides where the exponent is cut. -/
  short : digits.length ≤ text.length
  inside : places ≤ text.length
  reads : Decimal.read? text = some (Decimal.ofDigits digits places)

theorem ne_mark_of_isDigit {c : Char} (digit : c.isDigit = true) : c ≠ 'e' := by
  rintro rfl
  cases digit

theorem isSignificand_point {whole fraction : List Char} (isWhole : IsDigits whole) (isFraction : IsDigits fraction) :
    IsSignificand (whole ++ '.' :: fraction) (whole ++ fraction) fraction.length where
  head := by
    obtain ⟨lead, rest, rfl⟩ := List.exists_cons_of_ne_nil isWhole.filled
    exact ⟨lead, _, rfl, isWhole.digits lead List.mem_cons_self⟩
  unmarked := by
    simp only [List.forall_mem_append, List.forall_mem_cons]
    exact ⟨fun c member => ne_mark_of_isDigit (isWhole.digits c member), by decide,
      fun c member => ne_mark_of_isDigit (isFraction.digits c member)⟩
  allDigits := List.forall_mem_append.mpr ⟨isWhole.digits, isFraction.digits⟩
  short := by simp
  inside := by
    rw [List.length_append, List.length_cons]
    omega
  reads := Decimal.read?_point isWhole isFraction

theorem isSignificand_digit {lead : Char} (digit : lead.isDigit = true) : IsSignificand [lead] [lead] 0 where
  head := ⟨lead, [], rfl, digit⟩
  unmarked := List.forall_mem_singleton.mpr (ne_mark_of_isDigit digit)
  allDigits := List.forall_mem_singleton.mpr digit
  short := le_rfl
  inside := Nat.zero_le _
  reads := by simp [Decimal.read?, digit]

/-- A point is written only where digits follow the first one. -/
theorem isSignificand_leading {lead : Char} {rest : List Char} (digits : ∀ c ∈ lead :: rest, c.isDigit = true) :
    IsSignificand (lead :: if rest.isEmpty then [] else '.' :: rest) (lead :: rest) rest.length := by
  obtain ⟨digit, digits⟩ := List.forall_mem_cons.mp digits
  cases rest with
  | nil => exact isSignificand_digit digit
  | cons c more =>
      have isWhole : IsDigits [lead] := isDigits_cons digit (List.forall_mem_nil _)
      exact isSignificand_point isWhole ⟨List.cons_ne_nil c more, digits⟩

namespace IsSignificand

variable {text digits : List Char} {places : ℕ} (h : IsSignificand text digits places)
include h

theorem not_special (rest : List Char) : text ++ rest ≠ ['n', 'a', 'n'] ∧ text ++ rest ≠ ['i', 'n', 'f'] := by
  obtain ⟨lead, others, rfl, digit⟩ := h.head
  constructor <;>
    · intro same
      rw [(List.cons.inj same).1] at digit
      cases digit

theorem readMagnitude?_eq : readMagnitude? text = some (Decimal.ofDigits digits places).toFloat := by
  obtain ⟨notNaN, notInfinite⟩ := h.not_special []
  rw [List.append_nil] at notNaN notInfinite
  have unmarked : ∀ c ∈ text, decide (c ≠ 'e') = true := fun c member => decide_eq_true (h.unmarked c member)
  have uncut : clamp text.length 0 = 0 := by
    unfold clamp
    omega
  rw [readMagnitude?, if_neg notNaN, if_neg notInfinite, List.takeWhile_eq_self_iff.mpr unmarked,
    List.dropWhile_eq_nil_iff.mpr unmarked]
  simp [h.reads, uncut]

theorem readMagnitude?_exponent (style : Style) (exponent : ℤ) :
    readMagnitude? (text ++ 'e' :: exponentDigits style exponent) =
      some (Decimal.toFloat ⟨Nat.ofDigitChars 10 digits 0, -places + exponent⟩) := by
  obtain ⟨notNaN, notInfinite⟩ := h.not_special ('e' :: exponentDigits style exponent)
  have unmarked : ∀ c ∈ text, decide (c ≠ 'e') = true := fun c member => decide_eq_true (h.unmarked c member)
  have short := (ofDigitChars_lt h.allDigits).trans_le (Nat.pow_le_pow_right (by decide) h.short)
  rw [readMagnitude?, if_neg notNaN, if_neg notInfinite, List.takeWhile_append_of_pos unmarked,
    List.dropWhile_append_of_pos unmarked, List.takeWhile_cons_of_neg (by decide), List.dropWhile_cons_of_neg (by decide),
    List.append_nil, ← Decimal.toFloat_clamp short h.inside]
  simp [h.reads, exponent?_exponentDigits, Decimal.ofDigits]

end IsSignificand

/-- What is written of a decimal, in any style, is read as the double nearest to it. -/
theorem readMagnitude?_ofDecimal (style : Style) {d : Decimal} (positive : 0 < d.digits) :
    readMagnitude? (ofDecimal style d) = some d.toFloat := by
  rw [ofDecimal]
  split
  -- Zeros around the digits change neither form: both have the value that the digits have with all their zeros.
  · obtain ⟨whole, fraction, written, isWhole, isFraction, value⟩ := Decimal.positional_trimmed d
    rw [sub_add_cancel, written, (isSignificand_point isWhole isFraction).readMagnitude?_eq, Decimal.toFloat,
      Decimal.toFloat, value]
  · obtain ⟨lead, kept, trims, -, digits⟩ := trimmed_toDigits positive
    have value := Decimal.pointed_toDigits d
    rw [← pointed_trimmed, trims] at value
    rw [trims]
    refine ((isSignificand_leading digits).readMagnitude?_exponent style _).trans ?_
    rw [Decimal.toFloat, Decimal.value_leading, value, Decimal.toFloat]

theorem readMagnitude?_magnitude {n : ℕ} (bound : n ≤ infinityBits) :
    readMagnitude? (magnitude (signed .positive n)) = some (signed .positive n) := by
  obtain rfl | ⟨positive, finite⟩ | rfl := Binary64.number_cases bound
  · decide +kernel
  · have number := Binary64.isNaN_signed .positive bound
    have notInfinite := (Binary64.isInf_signed .positive bound).trans (decide_eq_false finite.ne)
    have filled := Decimal.digits_shortest_pos (Binary64.toBits_abs_signed_ne_zero .positive bound positive)
    rw [magnitude, number, notInfinite]
    refine (readMagnitude?_ofDecimal style filled).trans ?_
    rw [Decimal.toFloat_shortest number notInfinite, Binary64.abs_signed .positive bound]
  · decide +kernel

/-- The text of a double is read as this double. -/
theorem read?_write (x : Float) : read? (write x) = some x := by
  obtain rfl | ⟨sign, n, bound, rfl⟩ := Binary64.nan_or_signed x
  · decide +kernel
  have unsigned := readMagnitude?_magnitude bound
  cases sign with
  | negative =>
      rw [read?, toList_write_negative bound]
      change (readMagnitude? (magnitude (signed .positive n))).map (- ·) = _
      rw [unsigned, Option.map_some, Binary64.neg_signed .positive bound]
      rfl
  | positive =>
      rw [read?, toList_write_positive bound]
      split
      · rename_i rest signed
        rw [signed] at unsigned
        cases unsigned
      · exact unsigned

/-- No two doubles have the same text. -/
theorem write_injective : Function.Injective write := fun x y same =>
  Option.some.inj (by rw [← read?_write x, same, read?_write y])

end Numeral

end Reckoner
