import Reckoner.Proofs.Exponents
import Reckoner.Token

/-! # What a listing tells

A listing has a comma after every label but the last and none inside a label, so it can be taken apart into its labels. A
label names its operator, or it holds the text of its number, which no other number has. So no two lists of tokens have the
same listing.
-/

namespace Reckoner

/-! ## Texts between commas -/

/-- A text that can stand between the commas of a listing. -/
structure IsEntry (text : List Char) : Prop where
  filled : text ≠ []
  noComma : ',' ∉ text
  noSpace : ' ' ∉ text

section Joined

variable {entries others : List (List Char)}

theorem filter_intercalate (p : Char → Bool) (separator : List Char) :
    (separator.intercalate entries).filter p = (separator.filter p).intercalate (entries.map (List.filter p)) := by
  induction entries with
  | nil => rfl
  | cons entry rest ih =>
      cases rest with
      | nil => simp
      | cons next rest =>
          rw [List.intercalate_cons_cons, List.filter_append, List.filter_append, ih]
          simp

/-- Without the spaces, only single commas stand between the entries. -/
theorem splitOn_joined (each : ∀ entry ∈ entries, IsEntry entry) (filled : entries ≠ []) :
    (([',', ' '].intercalate entries).filter (· ≠ ' ')).splitOn ',' = entries := by
  have unchanged : entries.map (List.filter (· ≠ ' ')) = entries := by
    refine (List.map_congr_left fun entry member => ?_).trans entries.map_id
    refine List.filter_eq_self.mpr fun c inside => decide_eq_true ?_
    rintro rfl
    exact (each entry member).noSpace inside
  rw [filter_intercalate, unchanged]
  exact List.splitOn_intercalate ',' (fun entry member => (each entry member).noComma) filled

theorem joined_eq_nil (each : ∀ entry ∈ entries, IsEntry entry) (empty : [',', ' '].intercalate entries = []) :
    entries = [] := by
  by_contra filled
  -- The empty text is split into one empty entry, which no list of labels has.
  have only := splitOn_joined each filled
  rw [empty] at only
  exact (each [] (only ▸ List.mem_singleton_self [])).filled rfl

/-- Entries come back from the text that joins them. -/
theorem joined_injective (each : ∀ entry ∈ entries, IsEntry entry) (each' : ∀ entry ∈ others, IsEntry entry)
    (same : [',', ' '].intercalate entries = [',', ' '].intercalate others) : entries = others := by
  by_cases none : entries = []
  · rw [none] at same ⊢
    exact (joined_eq_nil each' same.symm).symm
  by_cases none' : others = []
  · rw [none'] at same
    exact (none (joined_eq_nil each same)).elim
  · rw [← splitOn_joined each none, same, splitOn_joined each' none']

end Joined

namespace Numeral

/-- The characters of numerals that are not digits. -/
def marks : List Char := ['.', 'e', '+', '-', 'i', 'n', 'f', 'a']

theorem Shape.isDigit_or_mark {text : List Char} (shape : Shape text) : ∀ c ∈ text, c.isDigit = true ∨ c ∈ marks := by
  have digits {part : List Char} (isDigits : IsDigits part) : ∀ c ∈ part, c.isDigit = true ∨ c ∈ marks :=
    fun c member => .inl (isDigits.digits c member)
  cases shape with
  | positional first isWhole isFraction =>
      exact List.forall_mem_append.mpr ⟨digits isWhole, List.forall_mem_cons.mpr ⟨.inr (by decide), digits isFraction⟩⟩
  | @scientific lead sign fraction exponent first digit isFraction isSign isExponent =>
      have inFraction : ∀ c ∈ fraction, c.isDigit = true ∨ c ∈ marks := by
        obtain rfl | ⟨figures, rfl, isFigures⟩ := isFraction
        · exact List.forall_mem_nil _
        · exact List.forall_mem_cons.mpr ⟨.inr (by decide), digits isFigures⟩
      have signMark : sign ∈ marks := by
        obtain rfl | rfl := isSign <;> decide
      simp only [List.cons_append, List.forall_mem_cons, List.forall_mem_append]
      exact ⟨.inl digit, inFraction, .inr (by decide), .inr signMark, digits isExponent⟩

theorem isDigit_or_mark_write (x : Float) : ∀ c ∈ (write x).toList, c.isDigit = true ∨ c ∈ marks := by
  by_cases special : write x ∈ special
  · have each : ∀ text ∈ Numeral.special, ∀ c ∈ text.toList, c.isDigit = true ∨ c ∈ marks := by
      simp [Numeral.special, marks]
    exact each _ special
  · rw [mem_special_iff, Bool.not_eq_true, Bool.or_eq_false_iff] at special
    have unsigned := (shape_magnitude special.1 special.2).isDigit_or_mark
    obtain ⟨sign, signed, written⟩ := toList_write x
    rw [written]
    obtain rfl | rfl := signed
    · exact unsigned
    · exact List.forall_mem_cons.mpr ⟨.inr (by decide), unsigned⟩

end Numeral

theorem Operator.label_injective : Function.Injective label := by
  rintro (⟨⟨⟩⟩ | ⟨⟨⟩⟩ | _) (⟨⟨⟩⟩ | ⟨⟨⟩⟩ | _) same <;> first | rfl | exact absurd same (by decide)

namespace Token

theorem isEntry_label (token : Token) : IsEntry token.label.toList := by
  cases token with
  | operator op =>
      rcases op with ⟨⟨⟩⟩ | ⟨⟨⟩⟩ | _ <;> constructor <;> decide
  | operand value =>
      have noComma : ',' ∉ (Numeral.write value).toList := fun member =>
        absurd (Numeral.isDigit_or_mark_write value ',' member) (by decide)
      have noSpace : ' ' ∉ (Numeral.write value).toList := fun member =>
        absurd (Numeral.isDigit_or_mark_write value ' ' member) (by decide)
      rw [label, String.toList_append, String.toList_append]
      constructor <;> simp [noComma, noSpace]

theorem label_operand_ne (x : Float) (op : Operator) : (operand x).label ≠ op.label := by
  intro same
  have ofOperand : (operand x).label.toList[5]? = some 'n' := by simp [label]
  have ofOperator : op.label.toList[5]? = some 't' := by simp [Operator.label]
  rw [same, ofOperator] at ofOperand
  cases ofOperand

theorem label_injective : Function.Injective label := by
  intro a b same
  cases a with
  | operand x =>
      cases b with
      | operand y =>
          have text : Numeral.write x = Numeral.write y := by
            simpa [label, ← String.toList_inj] using same
          rw [Numeral.write_injective text]
      | operator op => exact (label_operand_ne x op same).elim
  | operator op =>
      cases b with
      | operand y => exact (label_operand_ne y op same.symm).elim
      | operator op' => rw [Operator.label_injective same]

theorem listing_injective : Function.Injective listing := by
  intro s t same
  have each (tokens : List Token) : ∀ entry ∈ tokens.map (String.toList ∘ label), IsEntry entry := by
    simpa using fun token _ => isEntry_label token
  have joined : [',', ' '].intercalate (s.map (String.toList ∘ label)) =
      [',', ' '].intercalate (t.map (String.toList ∘ label)) := by
    simpa [listing, ← String.toList_inj] using same
  have distinct : Function.Injective (String.toList ∘ label) := fun a b same =>
    label_injective (String.toList_inj.mp same)
  exact List.map_injective_iff.mpr distinct (joined_injective (each s) (each t) joined)

/-- The same operator, or the same number bit by bit. All NaNs count as one number. -/
def Same : Token → Token → Prop
  | operand x, operand y => x.isNaN = true ∧ y.isNaN = true ∨ x.toBits = y.toBits
  | operator op, operator op' => op = op'
  | _, _ => False

theorem same_iff {a b : Token} : Same a b ↔ a = b := by
  cases a with
  | operand x =>
      cases b with
      | operand y =>
          rw [Same, operand.injEq, Float.toBits_inj]
          constructor
          · rintro (⟨nan, nan'⟩ | same)
            · rw [Binary64.eq_nan nan, Binary64.eq_nan nan']
            · exact same
          · exact .inr
      | operator op => simp [Same]
  | operator op => cases b <;> simp [Same]

/-- Lists with the same listing have the same length and the same token at every position. -/
theorem listing_eq_iff (s t : List Token) :
    listing s = listing t ↔
      s.length = t.length ∧ ∀ (i : ℕ) (left : i < s.length) (right : i < t.length), Same s[i] t[i] := by
  simp only [listing_injective.eq_iff, same_iff]
  exact List.ext_getElem_iff

example : listing [operand 0] ≠ listing [operand (-0)] := by decide +kernel

end Token

end Reckoner
