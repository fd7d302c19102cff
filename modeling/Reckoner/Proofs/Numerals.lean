import Mathlib.Algebra.Order.Ring.Rat
import Mathlib.Data.Nat.Cast.Order.Ring
import Reckoner.Numeral

/-! # The shape of numerals

The text of a finite double is digits with a point among them, or a digit with an exponent. No zero leads it but the one
before a point.
-/

namespace Reckoner

/-- At least one digit, and nothing else. -/
structure IsDigits (text : List Char) : Prop where
  filled : text ≠ []
  digits : ∀ c ∈ text, c.isDigit = true

theorem isDigits_cons {d : Char} {rest : List Char} (digit : d.isDigit = true) (digits : ∀ c ∈ rest, c.isDigit = true) :
    IsDigits (d :: rest) :=
  ⟨List.cons_ne_nil d rest, List.forall_mem_cons.mpr ⟨digit, digits⟩⟩

theorem isDigits_toDigits (n : Nat) : IsDigits (Nat.toDigits 10 n) :=
  ⟨Nat.toDigits_ne_nil, fun _ => Nat.isDigit_of_mem_toDigits (by decide) (by decide)⟩

theorem toDigits_cons {n : Nat} (positive : 0 < n) : ∃ d rest, Nat.toDigits 10 n = d :: rest ∧ d ≠ '0' := by
  induction n using Nat.strongRecOn with
  | ind n ih =>
      by_cases small : n < 10
      · have lead : ∀ k < 10, 0 < k → k.digitChar ≠ '0' := by decide
        exact ⟨_, [], Nat.toDigits_of_lt_base small, lead n small positive⟩
      · -- The digits of `n / 10` come first.
        obtain ⟨d, rest, written, nonzero⟩ := ih (n / 10) (by omega) (by omega)
        have split := Nat.toDigits_append_toDigits (by decide : 1 < 10) (by omega : 0 < n / 10) (n.mod_lt (by decide))
        rw [written, Nat.div_add_mod] at split
        exact ⟨d, _, split.symm, nonzero⟩

theorem scaled_zero (base : Nat) (exponent : Int) : scaled base 0 exponent = 0 := by
  cases exponent <;> simp [scaled]

theorem scaled_pos {base significand : Nat} (based : 0 < base) (positive : 0 < significand) (exponent : Int) :
    0 < scaled base significand exponent := by
  have power (n : Nat) : 0 < Nat.pow base n := Nat.pow_pos based
  cases exponent with
  | ofNat n => exact Nat.cast_pos.mpr (Nat.mul_pos positive (power n))
  | negSucc n => exact Rat.mkRat_pos (by omega) (power (n + 1)).ne'

namespace Decimal

variable {x : Float}

theorem digits_pos_of_readsAs {d : Decimal} (nonzero : x.abs.toBits ≠ 0) (reads : d.readsAs x = true) : 0 < d.digits := by
  obtain ⟨digits, exponent⟩ := d
  cases digits with
  | succ n => exact n.succ_pos
  | zero =>
      have zero : (⟨0, exponent⟩ : Decimal).toFloat.toBits = 0 := by
        rw [toFloat, value, scaled_zero]
        decide +kernel
      rw [readsAs, zero, beq_iff_eq] at reads
      exact (nonzero reads.symm).elim

theorem nearer_cases (value : Rat) (low : Decimal) : nearer value low = low ∨ nearer value low = low.next := by
  simp only [nearer]
  split
  · exact .inl rfl
  · split
    · exact .inr rfl
    · split
      · exact .inl rfl
      · exact .inr rfl

theorem readsAs_of_onGrid? {value : Rat} {unit : Int} {d : Decimal} (h : onGrid? x value unit = some d) :
    d.readsAs x = true := by
  simp only [onGrid?] at h
  split at h <;> cases h
  · obtain same | same := nearer_cases value (below value unit) <;> rwa [same]
  · assumption
  · assumption

theorem magnitude_pos (nonzero : x.abs.toBits ≠ 0) : 0 < Binary64.magnitude x := by
  have bits : x.abs.toBits.toNat ≠ 0 := by
    rwa [Ne, ← UInt64.toNat_zero, UInt64.toNat_inj]
  simp only [Binary64.magnitude]
  split
  · rename_i subnormal
    apply scaled_pos (by decide)
    have := Nat.div_add_mod x.abs.toBits.toNat Binary64.hidden
    rw [subnormal] at this
    omega
  · exact scaled_pos (by decide) (Nat.add_pos_left (by decide) _) _

theorem digits_shortest_pos (nonzero : x.abs.toBits ≠ 0) : 0 < (shortest x).digits := by
  simp only [shortest]
  cases found : (List.range mostDigits).findSome? _ with
  | some d =>
      obtain ⟨more, -, onGrid⟩ := List.exists_of_findSome?_eq_some found
      exact digits_pos_of_readsAs nonzero (readsAs_of_onGrid? onGrid)
  | none =>
      have positive := Rat.num_pos.mpr (magnitude_pos nonzero)
      exact Nat.mul_pos (by omega) (Nat.pow_pos (by decide))

theorem shortest_congr {y : Float} (same : x.abs.toBits = y.abs.toBits) : shortest x = shortest y := by
  simp only [shortest, onGrid?, readsAs, Binary64.magnitude, same]

end Decimal

namespace Numeral

/-- The text of a finite double without its sign. -/
inductive Shape : List Char → Prop where
  | positional {whole fraction : List Char} (first : whole = ['0'] ∨ whole.head? ≠ some '0') (isWhole : IsDigits whole)
      (isFraction : IsDigits fraction) : Shape (whole ++ '.' :: fraction)
  | scientific {lead sign : Char} {fraction exponent : List Char} (first : lead ≠ '0') (digit : lead.isDigit = true)
      (isFraction : fraction = [] ∨ ∃ digits, fraction = '.' :: digits ∧ IsDigits digits)
      (isSign : sign = '+' ∨ sign = '-') (isExponent : IsDigits exponent) :
      Shape (lead :: fraction ++ 'e' :: sign :: exponent)

theorem trimmed_cons {d : Char} (nonzero : d ≠ '0') (rest : List Char) :
    ∃ kept, trimmed (d :: rest) = d :: kept ∧ ∀ c ∈ kept, c ∈ rest := by
  -- Zeros are cut off from the end, and the digit in front stops that at the latest.
  have stays : [d].dropWhile (· == '0') = [d] := List.dropWhile_cons_of_neg (by simpa using nonzero)
  rw [trimmed, List.reverse_cons, List.dropWhile_append, stays]
  split
  · exact ⟨[], rfl, List.forall_mem_nil _⟩
  · refine ⟨(rest.reverse.dropWhile (· == '0')).reverse, by simp, fun c member => ?_⟩
    have := (List.dropWhile_sublist _).subset (List.mem_reverse.mp member)
    exact List.mem_reverse.mp this

theorem isDigits_orZero {digits : List Char} (all : ∀ c ∈ digits, c.isDigit = true) :
    IsDigits (if digits.isEmpty then ['0'] else digits) := by
  cases digits with
  | nil => exact isDigits_cons (by decide) (List.forall_mem_nil _)
  | cons d rest => exact ⟨List.cons_ne_nil d rest, all⟩

theorem isDigit_zeros (n : Nat) : ∀ c ∈ List.replicate n '0', c.isDigit = true := by
  intro c member
  rw [List.eq_of_mem_replicate member]
  decide

theorem shape_positional {d : Char} {rest : List Char} (nonzero : d ≠ '0') (digits : ∀ c ∈ d :: rest, c.isDigit = true)
    (point : Int) : Shape (positional (d :: rest) point) := by
  have taken : ∀ c ∈ (d :: rest).take point.toNat, c.isDigit = true := fun c member => digits c (List.mem_of_mem_take member)
  have dropped : ∀ c ∈ (d :: rest).drop point.toNat, c.isDigit = true := fun c member => digits c (List.mem_of_mem_drop member)
  refine .positional ?_ (isDigits_orZero (List.forall_mem_append.mpr ⟨taken, isDigit_zeros _⟩))
    (isDigits_orZero (List.forall_mem_append.mpr ⟨isDigit_zeros _, dropped⟩))
  cases point.toNat with
  | zero => exact .inl (by simp)
  | succ n => exact .inr (by simpa using nonzero)

theorem isDigits_padded (width n : Nat) : IsDigits (Text.padded 10 width n) := by
  have ⟨filled, digits⟩ := isDigits_toDigits n
  exact ⟨List.append_ne_nil_of_right_ne_nil _ filled, List.forall_mem_append.mpr ⟨isDigit_zeros _, digits⟩⟩

theorem shape_scientific {d : Char} {rest : List Char} (nonzero : d ≠ '0') (digits : ∀ c ∈ d :: rest, c.isDigit = true)
    (exponent : Int) : Shape (scientific style (d :: rest) exponent) := by
  obtain ⟨digit, digits⟩ := List.forall_mem_cons.mp digits
  have sign : (if exponent < 0 then '-' else '+') = '+' ∨ (if exponent < 0 then '-' else '+') = '-' := by
    split <;> simp
  refine .scientific nonzero digit ?_ sign (isDigits_padded _ _)
  cases rest with
  | nil => exact .inl rfl
  | cons c rest => exact .inr ⟨c :: rest, rfl, List.cons_ne_nil c rest, digits⟩

/-- The digits of a positive number that are left have no zero in front either. -/
theorem trimmed_toDigits {n : Nat} (positive : 0 < n) :
    ∃ lead kept, trimmed (Nat.toDigits 10 n) = lead :: kept ∧ lead ≠ '0' ∧ ∀ c ∈ lead :: kept, c.isDigit = true := by
  obtain ⟨lead, rest, written, nonzero⟩ := toDigits_cons positive
  obtain ⟨kept, trims, subset⟩ := trimmed_cons nonzero rest
  obtain ⟨digit, digits⟩ := List.forall_mem_cons.mp (written ▸ (isDigits_toDigits n).digits)
  exact ⟨lead, kept, written ▸ trims, nonzero,
    List.forall_mem_cons.mpr ⟨digit, fun c member => digits c (subset c member)⟩⟩

theorem shape_ofDecimal {d : Decimal} (positive : 0 < d.digits) : Shape (ofDecimal style d) := by
  obtain ⟨lead, kept, trims, nonzero, digits⟩ := trimmed_toDigits positive
  simp only [ofDecimal, trims]
  split
  · exact shape_positional nonzero digits _
  · exact shape_scientific nonzero digits _

theorem shape_magnitude {x : Float} (number : x.isNaN = false) (finite : x.isInf = false) : Shape (magnitude x) := by
  rw [magnitude, number, finite]
  change Shape (ofDecimal style (Decimal.shortest x))
  by_cases zero : x.abs.toBits = 0
  -- Both zeros have the same shortest decimal, and no other double has that of zero.
  · have written : ofDecimal style (Decimal.shortest 0) = ['0'] ++ '.' :: ['0'] := by decide +kernel
    have isZero : IsDigits ['0'] := isDigits_toDigits 0
    rw [Decimal.shortest_congr (y := 0) zero, written]
    exact .positional (.inl rfl) isZero isZero
  · exact shape_ofDecimal (Decimal.digits_shortest_pos zero)

theorem toList_write (x : Float) : ∃ sign, (sign = [] ∨ sign = ['-']) ∧ (write x).toList = sign ++ magnitude x := by
  rw [write, String.toList_ofList]
  split
  · exact ⟨['-'], .inr rfl, rfl⟩
  · exact ⟨[], .inl rfl, rfl⟩

/-- The texts of the doubles that are not finite. -/
def special : List String := ["inf", "-inf", "nan"]

theorem Shape.head {text : List Char} (shape : Shape text) : ∃ d rest, text = d :: rest ∧ d.isDigit = true := by
  cases shape with
  | positional first isWhole =>
      obtain ⟨filled, digits⟩ := isWhole
      obtain ⟨d, rest, rfl⟩ := List.exists_cons_of_ne_nil filled
      exact ⟨d, _, rfl, digits d List.mem_cons_self⟩
  | scientific first digit => exact ⟨_, _, rfl, digit⟩

theorem write_of_isNaN {x : Float} (nan : x.isNaN = true) : write x = "nan" := by
  simp only [write, isNegative, magnitude, nan]
  rfl

theorem write_of_isInf {x : Float} (number : x.isNaN = false) (infinite : x.isInf = true) :
    write x = "inf" ∨ write x = "-inf" := by
  simp only [write, magnitude, number, infinite]
  cases isNegative x
  · exact .inl rfl
  · exact .inr rfl

theorem mem_special_iff (x : Float) : write x ∈ special ↔ (x.isNaN || x.isInf) = true := by
  constructor
  · intro member
    by_contra finite
    simp only [Bool.or_eq_true, not_or, Bool.not_eq_true] at finite
    obtain ⟨d, rest, written, digit⟩ := (shape_magnitude finite.1 finite.2).head
    obtain ⟨sign, signed, text⟩ := toList_write x
    simp only [special, List.mem_cons, List.not_mem_nil, or_false] at member
    obtain rfl | rfl := signed <;> obtain same | same | same := member <;>
      · rw [same, written] at text
        cases text <;> cases digit
  · intro infinite
    cases nan : x.isNaN with
    | true => simp [write_of_isNaN nan, special]
    | false =>
        rw [nan, Bool.false_or] at infinite
        obtain written | written := write_of_isInf nan infinite <;> simp [written, special]

end Numeral

end Reckoner
