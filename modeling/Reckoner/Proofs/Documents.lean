import Reckoner.Proofs.Numerals
import Reckoner.Text.Json

/-! # Reading documents

A reader for JSON documents that are one object of strings and numbers, after the grammar of JSON. It takes in character
after character, and reads every object of this library as the fields that it was written from.
-/

namespace Reckoner.Text.Json

/-- How far the text of a number has come. -/
inductive Numeric where
  | minus
  | zero
  | whole
  | point
  | fraction
  | mark
  | sign
  | exponent
  deriving DecidableEq

namespace Numeric

/-- Only a zero that stands alone comes first. -/
def first? (c : Char) : Option Numeric :=
  if c = '0' then some zero else if c.isDigit then some whole else none

def start? (c : Char) : Option Numeric :=
  if c = '-' then some minus else first? c

def mark? (c : Char) : Option Numeric :=
  if c = 'e' || c = 'E' then some mark else none

def point? (c : Char) : Option Numeric :=
  if c = '.' then some point else mark? c

def next? : Numeric → Char → Option Numeric
  | minus, c => first? c
  | zero, c => point? c
  | whole, c => if c.isDigit then some whole else point? c
  | point, c => if c.isDigit then some fraction else none
  | fraction, c => if c.isDigit then some fraction else mark? c
  | mark, c => if c = '+' || c = '-' then some sign else if c.isDigit then some exponent else none
  | sign, c | exponent, c => if c.isDigit then some exponent else none

def isComplete : Numeric → Bool
  | zero | whole | fraction | exponent => true
  | minus | point | mark | sign => false

end Numeric

def isNumber : List Char → Bool
  | [] => false
  | c :: rest => ((Numeric.start? c).bind (rest.foldlM Numeric.next?)).any Numeric.isComplete

def isHigh (unit : Nat) : Bool :=
  0xD800 ≤ unit && unit < 0xDC00

def isLow (unit : Nat) : Bool :=
  0xDC00 ≤ unit && unit < 0xE000

def paired (high low : Nat) : Char :=
  Char.ofNat (0x10000 + (high - 0xD800) * 0x400 + (low - 0xDC00))

/-- The text of UTF-16 code units, after a first surrogate that waits for the second. -/
def decode16? : (waiting : Option Nat) → List Nat → Option (List Char)
  | none, [] => some []
  | some _, [] => none
  | none, unit :: rest =>
    if isHigh unit then decode16? (some unit) rest
    else if isLow unit then none
    else (decode16? none rest).map (Char.ofNat unit :: ·)
  | some high, low :: rest => if isLow low then (decode16? none rest).map (paired high low :: ·) else none

def hexDigit? (c : Char) : Option Nat :=
  if c.isDigit then some (c.toNat - '0'.toNat)
  else if 'a' ≤ c && c ≤ 'f' then some (c.toNat - 'a'.toNat + 10)
  else if 'A' ≤ c && c ≤ 'F' then some (c.toNat - 'A'.toNat + 10)
  else none

/-- The code unit that a letter behind a backslash stands for. -/
def named? (c : Char) : Option Nat :=
  if c = '\x22' || c = '\\' || c = '/' then some c.toNat
  else if c = 'b' then some 0x08
  else if c = 't' then some 0x09
  else if c = 'n' then some 0x0A
  else if c = 'f' then some 0x0C
  else if c = 'r' then some 0x0D
  else none

/-- A value in a flat document. A number stays the text that it is. -/
inductive Scalar where
  | string (text : String)
  | number (text : String)
  deriving DecidableEq

inductive Lexeme where
  | punctuation (c : Char)
  | scalar (scalar : Scalar)

/-- Where in a document the reader is. -/
inductive Mode where
  | outside
  | inString (units : List Nat)
  /-- Right behind a backslash. -/
  | escaped (units : List Nat)
  /-- Within the four digits of a code unit. -/
  | inUnit (units : List Nat) (count value : Nat)
  | inNumber (numeric : Numeric) (text : List Char)

structure Reader where
  mode : Mode
  lexemes : List Lexeme

namespace Reader

def start : Reader := ⟨.outside, []⟩

def outside? (lexemes : List Lexeme) (c : Char) : Option Reader :=
  if c = ' ' || c = '\t' || c = '\n' || c = '\r' then some ⟨.outside, lexemes⟩
  else if c = '\x7b' || c = '\x7d' || c = ':' || c = ',' then some ⟨.outside, lexemes ++ [.punctuation c]⟩
  else if c = '\x22' then some ⟨.inString [], lexemes⟩
  else (Numeric.start? c).map fun numeric => ⟨.inNumber numeric [c], lexemes⟩

def step? : Reader → Char → Option Reader
  | ⟨.outside, lexemes⟩, c => outside? lexemes c
  | ⟨.inString units, lexemes⟩, c =>
    if c = '\x22' then
      (decode16? none units).map fun text => ⟨.outside, lexemes ++ [.scalar (.string (String.ofList text))]⟩
    else if c = '\\' then some ⟨.escaped units, lexemes⟩
    else if c.toNat < 0x20 then none
    else some ⟨.inString (units ++ units16 c), lexemes⟩
  | ⟨.escaped units, lexemes⟩, c =>
    if c = 'u' then some ⟨.inUnit units 0 0, lexemes⟩
    else (named? c).map fun unit => ⟨.inString (units ++ [unit]), lexemes⟩
  | ⟨.inUnit units count value, lexemes⟩, c =>
    (hexDigit? c).map fun digit =>
      if count < 3 then ⟨.inUnit units (count + 1) (16 * value + digit), lexemes⟩
      else ⟨.inString (units ++ [16 * value + digit]), lexemes⟩
  | ⟨.inNumber numeric text, lexemes⟩, c =>
    match numeric.next? c with
    | some next => some ⟨.inNumber next (text ++ [c]), lexemes⟩
    | none =>
      if numeric.isComplete then outside? (lexemes ++ [.scalar (.number (String.ofList text))]) c else none

def run? (reader : Reader) (text : List Char) : Option Reader :=
  text.foldlM step? reader

end Reader

/-- The fields up to the end of an object. -/
def fields? : List Lexeme → Option (List (String × Scalar))
  | [.scalar (.string key), .punctuation ':', .scalar value, .punctuation '\x7d'] => some [(key, value)]
  | .scalar (.string key) :: .punctuation ':' :: .scalar value :: .punctuation ',' :: rest =>
    (fields? rest).map ((key, value) :: ·)
  | _ => none

/-- The fields of an object, behind its first brace. -/
def object? : List Lexeme → Option (List (String × Scalar))
  | [.punctuation '\x7d'] => some []
  | lexemes => fields? lexemes

/-- The fields of a document that is one object. -/
def document? (text : String) : Option (List (String × Scalar)) :=
  match Reader.start.run? text.toList with
  | some ⟨.outside, .punctuation '\x7b' :: lexemes⟩ => object? lexemes
  | _ => none

theorem decode16?_units16 (c : Char) (rest : List Nat) :
    decode16? none (units16 c ++ rest) = (decode16? none rest).map (c :: ·) := by
  have valid : c.toNat < 0xD800 ∨ 0xDFFF < c.toNat ∧ c.toNat < 0x110000 := c.valid
  unfold units16
  split
  · have high : isHigh c.toNat = false := by simp [isHigh]; omega
    have low : isLow c.toNat = false := by simp [isLow]; omega
    simp [decode16?, high, low, Char.ofNat_toNat]
  · have high : isHigh (0xD800 + (c.toNat - 0x10000) / 0x400) = true := by simp [isHigh]; omega
    have low : isLow (0xDC00 + (c.toNat - 0x10000) % 0x400) = true := by simp [isLow]; omega
    have joined : paired (0xD800 + (c.toNat - 0x10000) / 0x400) (0xDC00 + (c.toNat - 0x10000) % 0x400) = c := by
      rw [paired, Nat.add_sub_cancel_left, Nat.add_sub_cancel_left, Nat.add_assoc, Nat.div_add_mod',
        Nat.add_sub_cancel' (by omega), Char.ofNat_toNat]
    simp [decode16?, high, low, joined]

theorem decode16?_flatMap (text : List Char) : decode16? none (text.flatMap units16) = some text := by
  induction text with
  | nil => rfl
  | cons c rest ih => rw [List.flatMap_cons, decode16?_units16, ih]; rfl

theorem hexDigit?_digitChar : ∀ d < 16, hexDigit? d.digitChar = some d := by
  decide

theorem padded_succ {base width n : Nat} (many : 1 < base) (wide : 0 < width) :
    padded base (width + 1) n = padded base width (n / base) ++ [(n % base).digitChar] := by
  have rest : n % base < base := n.mod_lt (by omega)
  simp only [padded]
  by_cases small : n < base
  · obtain ⟨width, rfl⟩ := Nat.exists_eq_add_one.mpr wide
    rw [Nat.toDigits_of_lt_base small, Nat.div_eq_of_lt small, Nat.mod_eq_of_lt small, Nat.toDigits_zero]
    simp [List.replicate_succ']
  · have split := Nat.toDigits_append_toDigits many (Nat.div_pos (by omega) (by omega) : 0 < n / base) rest
    rw [Nat.div_add_mod, Nat.toDigits_of_lt_base rest] at split
    rw [← split, List.length_append, List.length_singleton, Nat.add_sub_add_right, List.append_assoc]

theorem padded_unit {unit : Nat} (narrow : unit < 0x10000) : padded 16 4 unit =
    [unit / 16 / 16 / 16, unit / 16 / 16 % 16, unit / 16 % 16, unit % 16].map Nat.digitChar := by
  have last : unit / 16 / 16 / 16 < 16 := by omega
  simp only [padded_succ (by decide : 1 < 16), Nat.zero_lt_succ]
  simp [padded, Nat.toDigits_of_lt_base last]

theorem units16_lt (c : Char) : ∀ unit ∈ units16 c, unit < 0x10000 := by
  have valid : c.toNat < 0xD800 ∨ 0xDFFF < c.toNat ∧ c.toNat < 0x110000 := c.valid
  unfold units16
  split <;> simp <;> omega

namespace Reader

theorem run?_append (reader : Reader) (first second : List Char) :
    reader.run? (first ++ second) = (reader.run? first).bind (·.run? second) :=
  List.foldlM_append

theorem run?_cons (reader : Reader) (c : Char) (rest : List Char) :
    reader.run? (c :: rest) = (reader.step? c).bind (·.run? rest) :=
  List.foldlM_cons

theorem run?_nil (reader : Reader) : reader.run? [] = some reader := rfl

variable {lexemes : List Lexeme} {units : List Nat}

theorem run?_unit {unit : Nat} (narrow : unit < 0x10000) :
    run? ⟨.inString units, lexemes⟩ ('\\' :: 'u' :: padded 16 4 unit) = some ⟨.inString (units ++ [unit]), lexemes⟩ := by
  have last : unit / 16 / 16 / 16 < 16 := by omega
  have digit (n : Nat) : hexDigit? (n % 16).digitChar = some (n % 16) := hexDigit?_digitChar _ (n.mod_lt (by decide))
  have value : 16 * (16 * (16 * (unit / 16 / 16 / 16) + unit / 16 / 16 % 16) + unit / 16 % 16) + unit % 16 = unit := by
    omega
  rw [padded_unit narrow]
  simp [run?_cons, run?_nil, step?, hexDigit?_digitChar _ last, digit, value]

theorem run?_named {letter : Char} {unit : Nat} (named : named? letter = some unit) (other : letter ≠ 'u') :
    run? ⟨.inString units, lexemes⟩ ['\\', letter] = some ⟨.inString (units ++ [unit]), lexemes⟩ := by
  simp [run?_cons, run?_nil, step?, named, other]

/-- The code units of a character one by one. -/
theorem run?_units (list : List Nat) (narrow : ∀ unit ∈ list, unit < 0x10000) :
    run? ⟨.inString units, lexemes⟩ (list.flatMap fun unit => '\\' :: 'u' :: padded 16 4 unit) =
      some ⟨.inString (units ++ list), lexemes⟩ := by
  induction list generalizing units with
  | nil => rw [List.append_nil]; rfl
  | cons unit rest ih =>
      obtain ⟨small, narrow⟩ := List.forall_mem_cons.mp narrow
      rw [List.flatMap_cons, run?_append, run?_unit small, Option.bind_some, ih narrow, List.append_assoc]
      rfl

theorem run?_escape (c : Char) :
    run? ⟨.inString units, lexemes⟩ (escape c) = some ⟨.inString (units ++ units16 c), lexemes⟩ := by
  unfold escape
  split
  · rename_i marked
    rw [Bool.or_eq_true, decide_eq_true_iff, decide_eq_true_iff] at marked
    obtain rfl | rfl := marked <;> exact run?_named rfl (by decide)
  · rename_i unmarked
    simp only [Bool.or_eq_true, decide_eq_true_eq, not_or] at unmarked
    -- The control characters that have a letter of their own.
    iterate 5
      split
      · subst c
        exact run?_named rfl (by decide)
    split
    · rename_i printable
      simp only [Bool.and_eq_true, decide_eq_true_eq] at printable
      simp [run?_cons, run?_nil, step?, unmarked, Nat.not_lt.mpr printable.1]
    · exact run?_units _ (units16_lt c)

theorem run?_flatMap_escape (text : List Char) :
    run? ⟨.inString units, lexemes⟩ (text.flatMap escape) =
      some ⟨.inString (units ++ text.flatMap units16), lexemes⟩ := by
  induction text generalizing units with
  | nil => rw [List.flatMap_nil, List.flatMap_nil, List.append_nil]; rfl
  | cons c rest ih =>
      rw [List.flatMap_cons, run?_append, run?_escape, Option.bind_some, ih, List.append_assoc, List.flatMap_cons]

theorem run?_string (text : String) :
    run? ⟨.outside, lexemes⟩ (string text).toList = some ⟨.outside, lexemes ++ [.scalar (.string text)]⟩ := by
  have opens : step? ⟨.outside, lexemes⟩ '\x22' = some ⟨.inString [], lexemes⟩ := rfl
  have closes : step? ⟨.inString (text.toList.flatMap units16), lexemes⟩ '\x22' =
      some ⟨.outside, lexemes ++ [.scalar (.string text)]⟩ := by
    simp [step?, decode16?_flatMap]
  rw [string, String.toList_ofList, List.cons_append, run?_cons, opens, Option.bind_some, run?_append,
    run?_flatMap_escape, Option.bind_some, List.nil_append, run?_cons, closes, Option.bind_some, run?_nil]

theorem run?_digits_number {numeric next : Numeric} {text rest : List Char}
    (accepted : rest.foldlM Numeric.next? numeric = some next) :
    run? ⟨.inNumber numeric text, lexemes⟩ rest = some ⟨.inNumber next (text ++ rest), lexemes⟩ := by
  induction rest generalizing numeric text with
  | nil =>
      cases accepted
      rw [List.append_nil, run?_nil]
  | cons c rest ih =>
      rw [List.foldlM_cons] at accepted
      obtain ⟨between, advances, accepted⟩ := Option.bind_eq_some_iff.mp accepted
      rw [run?_cons, step?, advances, Option.bind_some, ih accepted, List.append_assoc]
      rfl

def IsEnd (c : Char) : Prop := c = ',' ∨ c = '\x7d'

theorem outside?_end {c : Char} (isEnd : IsEnd c) :
    outside? lexemes c = some ⟨.outside, lexemes ++ [.punctuation c]⟩ := by
  obtain rfl | rfl := isEnd <;> rfl

theorem next?_end {c : Char} (isEnd : IsEnd c) (numeric : Numeric) : numeric.next? c = none := by
  obtain rfl | rfl := isEnd <;> cases numeric <;> rfl

theorem start?_outside {c : Char} {numeric : Numeric} (starts : Numeric.start? c = some numeric) :
    outside? lexemes c = some ⟨.inNumber numeric [c], lexemes⟩ := by
  have none : ∀ d ∈ [' ', '\t', '\n', '\r', '\x7b', '\x7d', ':', ',', '\x22'], (Numeric.start? d).isNone = true :=
    List.all_eq_true.mp rfl
  have other : c ∉ [' ', '\t', '\n', '\r', '\x7b', '\x7d', ':', ',', '\x22'] := by
    intro member
    have silent := none c member
    rw [starts] at silent
    cases silent
  simp only [List.mem_cons, List.not_mem_nil, or_false, not_or] at other
  simp [outside?, other, starts]

theorem run?_number {text : List Char} (number : isNumber text = true) {c : Char} (isEnd : IsEnd c) :
    run? ⟨.outside, lexemes⟩ (text ++ [c]) =
      some ⟨.outside, lexemes ++ [.scalar (.number (String.ofList text)), .punctuation c]⟩ := by
  cases text with
  | nil => cases number
  | cons first rest =>
      obtain ⟨last, accepted, complete⟩ := (Option.any_eq_true _ _).mp number
      obtain ⟨numeric, starts, accepted⟩ := Option.bind_eq_some_iff.mp accepted
      have ends : step? ⟨.inNumber last (first :: rest), lexemes⟩ c =
          some ⟨.outside, lexemes ++ [.scalar (.number (String.ofList (first :: rest))), .punctuation c]⟩ := by
        rw [step?, next?_end isEnd]
        simp [complete, outside?_end isEnd]
      rw [List.cons_append, run?_cons, step?, start?_outside starts, Option.bind_some, run?_append,
        run?_digits_number accepted, Option.bind_some, List.singleton_append, run?_cons, ends, Option.bind_some, run?_nil]

end Reader

def Scalar.text : Scalar → String
  | string text => Json.string text
  | number text => text

/-- Numbers are written as JSON has them. -/
def Scalar.IsWritten : Scalar → Prop
  | string _ => True
  | number text => isNumber text.toList = true

def fieldText (field : String × Scalar) : String :=
  string field.1 ++ ": " ++ field.2.text

def fieldLexemes (field : String × Scalar) (last : Char) : List Lexeme :=
  [.scalar (.string field.1), .punctuation ':', .scalar field.2, .punctuation last]

namespace Reader

variable {lexemes : List Lexeme}

theorem run?_scalar {scalar : Scalar} (written : scalar.IsWritten) {c : Char} (isEnd : IsEnd c) :
    run? ⟨.outside, lexemes⟩ (scalar.text.toList ++ [c]) =
      some ⟨.outside, lexemes ++ [.scalar scalar, .punctuation c]⟩ := by
  cases scalar with
  | number text => rw [Scalar.text, run?_number written isEnd, String.ofList_toList]
  | string text =>
      rw [Scalar.text, run?_append, run?_string, Option.bind_some, run?_cons, step?, outside?_end isEnd,
        Option.bind_some, run?_nil, List.append_assoc]
      rfl

theorem run?_field {field : String × Scalar} (written : field.2.IsWritten) {c : Char} (isEnd : IsEnd c) :
    run? ⟨.outside, lexemes⟩ ((fieldText field).toList ++ [c]) =
      some ⟨.outside, lexemes ++ fieldLexemes field c⟩ := by
  have colon : run? ⟨.outside, lexemes ++ [.scalar (.string field.1)]⟩ ": ".toList =
      some ⟨.outside, lexemes ++ [.scalar (.string field.1)] ++ [.punctuation ':']⟩ := rfl
  rw [fieldText, String.toList_append, String.toList_append, List.append_assoc, List.append_assoc, run?_append,
    run?_string, Option.bind_some, run?_append, colon, Option.bind_some, run?_scalar written isEnd]
  simp [fieldLexemes]

/-- What is read of the fields of an object, up to its last brace, makes up these fields. -/
theorem run?_fields (lexemes : List Lexeme) (field : String × Scalar) (rest : List (String × Scalar))
    (written : ∀ given ∈ field :: rest, given.2.IsWritten) :
    ∃ more, run? ⟨.outside, lexemes⟩ ((", ".intercalate ((field :: rest).map fieldText)).toList ++ ['\x7d']) =
        some ⟨.outside, lexemes ++ more⟩ ∧ fields? more = some (field :: rest) := by
  induction rest generalizing field lexemes with
  | nil => exact ⟨_, run?_field (written field List.mem_cons_self) (.inr rfl), rfl⟩
  | cons second rest ih =>
      obtain ⟨first, written⟩ := List.forall_mem_cons.mp written
      obtain ⟨more, reads, fields⟩ := ih (lexemes ++ fieldLexemes field ',') second written
      have texts : (", ".intercalate ((field :: second :: rest).map fieldText)).toList ++ ['\x7d'] =
          (fieldText field).toList ++ [','] ++
            ' ' :: ((", ".intercalate ((second :: rest).map fieldText)).toList ++ ['\x7d']) := by
        simp [String.intercalate_cons_cons]
      -- The blank behind a comma adds nothing.
      have blank : step? ⟨.outside, lexemes ++ fieldLexemes field ','⟩ ' ' =
          some ⟨.outside, lexemes ++ fieldLexemes field ','⟩ := rfl
      refine ⟨fieldLexemes field ',' ++ more, ?_, ?_⟩
      · rw [texts, run?_append, run?_field first (.inl rfl), Option.bind_some, run?_cons, blank, Option.bind_some, reads,
          List.append_assoc]
      · change (fields? more).map ((field.1, field.2) :: ·) = _
        rw [fields]
        rfl

end Reader

theorem toList_object (fields : List (String × Scalar)) :
    (object (fields.map fun field => (field.1, field.2.text))).toList =
      '\x7b' :: ((", ".intercalate (fields.map fieldText)).toList ++ ['\x7d']) := by
  simp [object, fieldText, Function.comp_def]

/-- Every object is read as the fields that it was written from. -/
theorem document?_object {fields : List (String × Scalar)} (written : ∀ field ∈ fields, field.2.IsWritten) :
    document? (object (fields.map fun field => (field.1, field.2.text))) = some fields := by
  have opens : Reader.start.step? '\x7b' = some ⟨.outside, [.punctuation '\x7b']⟩ := rfl
  rw [document?, toList_object, Reader.run?_cons, opens, Option.bind_some]
  cases fields with
  | nil => rfl
  | cons field rest =>
      obtain ⟨more, reads, fields⟩ := Reader.run?_fields _ field rest written
      rw [reads]
      change object? more = _
      unfold object?
      split
      -- An object with fields does not close at once.
      · cases fields
      · exact fields

example : document? "\x7b\"a\":-1.5e3 , \"b\": \"\\ud83d\\uDE00\"\x7d" =
    some [("a", .number "-1.5e3"), ("b", .string "😀")] := by
  decide +kernel

/-! ## Plain text -/

def isPlain (c : Char) : Bool :=
  0x20 ≤ c.toNat && c.toNat < 0x7F

theorem isPlain_toDigits (n : Nat) : ∀ c ∈ Nat.toDigits 16 n, isPlain c = true := by
  have digit : ∀ d < 16, isPlain d.digitChar = true := by decide
  induction n using Nat.strongRecOn with
  | ind n ih =>
      by_cases small : n < 16
      · rw [Nat.toDigits_of_lt_base small]
        exact List.forall_mem_singleton.mpr (digit n small)
      · rw [Nat.toDigits_of_base_le (by decide) (by omega), List.forall_mem_append]
        exact ⟨ih _ (by omega), List.forall_mem_singleton.mpr (digit _ (n.mod_lt (by decide)))⟩

theorem isPlain_padded (width n : Nat) : ∀ c ∈ padded 16 width n, isPlain c = true := by
  simp only [padded, List.forall_mem_append]
  refine ⟨fun c member => ?_, isPlain_toDigits n⟩
  rw [List.eq_of_mem_replicate member]
  rfl

theorem isPlain_escape (c : Char) : ∀ d ∈ escape c, isPlain d = true := by
  unfold escape
  split
  · rename_i marked
    rw [Bool.or_eq_true, decide_eq_true_iff, decide_eq_true_iff] at marked
    obtain rfl | rfl := marked <;> exact List.all_eq_true.mp rfl
  · iterate 5
      split
      · exact List.all_eq_true.mp rfl
    split
    · rename_i printable
      exact List.forall_mem_singleton.mpr printable
    · simp only [List.forall_mem_flatMap, List.forall_mem_cons]
      exact fun unit _ => ⟨rfl, rfl, isPlain_padded 4 unit⟩

theorem isPlain_string (text : String) : ∀ c ∈ (string text).toList, isPlain c = true := by
  simp only [string, String.toList_ofList, List.cons_append, List.forall_mem_cons, List.forall_mem_append,
    List.forall_mem_flatMap]
  exact ⟨rfl, fun c _ => isPlain_escape c, rfl, nofun⟩

theorem isPlain_of_isDigit {c : Char} (digit : c.isDigit = true) : isPlain c = true := by
  simp only [Char.isDigit, Bool.and_eq_true, decide_eq_true_eq] at digit
  have least : 48 ≤ c.toNat := UInt32.le_iff_toNat_le.mp digit.1
  have most : c.toNat ≤ 57 := UInt32.le_iff_toNat_le.mp digit.2
  simp only [isPlain, Bool.and_eq_true, decide_eq_true_eq]
  omega

/-- No number goes on with any other character. -/
theorem next?_eq_none {c : Char} (other : ¬isPlain c = true) (numeric : Numeric) : numeric.next? c = none := by
  have digit : c.isDigit = false := Bool.eq_false_iff.mpr fun digit => other (isPlain_of_isDigit digit)
  have characters : ∀ d ∈ ['0', '.', 'e', 'E', '+', '-'], c ≠ d := by
    rintro d member rfl
    have plain : ∀ d ∈ ['0', '.', 'e', 'E', '+', '-'], isPlain d = true := List.all_eq_true.mp rfl
    exact other (plain c member)
  simp only [List.forall_mem_cons] at characters
  cases numeric <;> simp [Numeric.next?, Numeric.first?, Numeric.point?, Numeric.mark?, digit, characters]

theorem isPlain_of_next? {numeric next : Numeric} {c : Char} (advances : numeric.next? c = some next) :
    isPlain c = true := by
  refine Decidable.byContradiction fun other => ?_
  rw [next?_eq_none other] at advances
  cases advances

theorem isPlain_of_start? {numeric : Numeric} {c : Char} (starts : Numeric.start? c = some numeric) :
    isPlain c = true := by
  unfold Numeric.start? at starts
  split at starts
  · subst c
    rfl
  · exact @isPlain_of_next? .minus _ _ starts

theorem isPlain_of_foldlM {numeric next : Numeric} {text : List Char}
    (accepted : text.foldlM Numeric.next? numeric = some next) : ∀ c ∈ text, isPlain c = true := by
  induction text generalizing numeric with
  | nil => exact List.forall_mem_nil _
  | cons c rest ih =>
      rw [List.foldlM_cons] at accepted
      obtain ⟨between, advances, accepted⟩ := Option.bind_eq_some_iff.mp accepted
      exact List.forall_mem_cons.mpr ⟨isPlain_of_next? advances, ih accepted⟩

theorem isPlain_number {text : List Char} (number : isNumber text = true) : ∀ c ∈ text, isPlain c = true := by
  cases text with
  | nil => cases number
  | cons c rest =>
      obtain ⟨last, accepted, -⟩ := (Option.any_eq_true _ _).mp number
      obtain ⟨numeric, starts, accepted⟩ := Option.bind_eq_some_iff.mp accepted
      exact List.forall_mem_cons.mpr ⟨isPlain_of_start? starts, isPlain_of_foldlM accepted⟩

theorem isPlain_fieldText {field : String × Scalar} (written : field.2.IsWritten) :
    ∀ c ∈ (fieldText field).toList, isPlain c = true := by
  obtain ⟨key, scalar⟩ := field
  have value : ∀ c ∈ scalar.text.toList, isPlain c = true := by
    cases scalar with
    | string text => exact isPlain_string text
    | number text => exact isPlain_number written
  have colon : ∀ c ∈ ": ".toList, isPlain c = true := List.all_eq_true.mp rfl
  simp only [fieldText, String.toList_append, List.forall_mem_append]
  exact ⟨⟨isPlain_string key, colon⟩, value⟩

theorem isPlain_fields {fields : List (String × Scalar)} (written : ∀ field ∈ fields, field.2.IsWritten) :
    ∀ c ∈ (", ".intercalate (fields.map fieldText)).toList, isPlain c = true := by
  induction fields with
  | nil => exact List.forall_mem_nil _
  | cons field rest ih =>
      obtain ⟨first, written⟩ := List.forall_mem_cons.mp written
      have plain := isPlain_fieldText first
      cases rest with
      | nil => simpa using plain
      | cons second rest =>
          have comma : ∀ c ∈ ", ".toList, isPlain c = true := List.all_eq_true.mp rfl
          rw [List.map_cons, List.map_cons, String.intercalate_cons_cons, String.toList_append, String.toList_append]
          simp only [List.forall_mem_append]
          exact ⟨⟨plain, comma⟩, ih written⟩

/-- A document is one line of plain characters. -/
theorem isPlain_object {fields : List (String × Scalar)} (written : ∀ field ∈ fields, field.2.IsWritten) :
    ∀ c ∈ (object (fields.map fun field => (field.1, field.2.text))).toList, isPlain c = true := by
  rw [toList_object]
  exact List.forall_mem_cons.mpr
    ⟨rfl, List.forall_mem_append.mpr ⟨isPlain_fields written, List.forall_mem_singleton.mpr rfl⟩⟩

/-! ## Numerals -/

namespace Numeric

theorem foldlM_digits {numeric : Numeric} (stays : ∀ c, c.isDigit = true → numeric.next? c = some numeric)
    {text : List Char} (digits : ∀ c ∈ text, c.isDigit = true) : text.foldlM next? numeric = some numeric := by
  induction text with
  | nil => rfl
  | cons c rest ih =>
      obtain ⟨digit, digits⟩ := List.forall_mem_cons.mp digits
      rw [List.foldlM_cons, stays c digit]
      exact ih digits

theorem foldlM_isDigits {before after : Numeric} (enters : ∀ c, c.isDigit = true → before.next? c = some after)
    (stays : ∀ c, c.isDigit = true → after.next? c = some after) {text : List Char} (isDigits : IsDigits text) :
    text.foldlM next? before = some after := by
  obtain ⟨filled, digits⟩ := isDigits
  obtain ⟨c, rest, rfl⟩ := List.exists_cons_of_ne_nil filled
  obtain ⟨digit, digits⟩ := List.forall_mem_cons.mp digits
  rw [List.foldlM_cons, enters c digit]
  exact foldlM_digits stays digits

theorem foldlM_fraction {text : List Char} (isDigits : IsDigits text) : text.foldlM next? point = some fraction :=
  @foldlM_isDigits point fraction (fun _ digit => if_pos digit) (fun _ digit => if_pos digit) _ isDigits

theorem foldlM_exponent {text : List Char} (isDigits : IsDigits text) : text.foldlM next? sign = some exponent :=
  @foldlM_isDigits sign exponent (fun _ digit => if_pos digit) (fun _ digit => if_pos digit) _ isDigits

theorem first?_digit {c : Char} (digit : c.isDigit = true) (nonzero : c ≠ '0') : first? c = some whole := by
  rw [first?, if_neg nonzero, if_pos digit]

theorem foldlM_whole {text : List Char} (first : text = ['0'] ∨ text.head? ≠ some '0') (isWhole : IsDigits text) :
    text.foldlM next? minus = some zero ∨ text.foldlM next? minus = some whole := by
  obtain rfl | first := first
  · exact .inl rfl
  · obtain ⟨filled, digits⟩ := isWhole
    obtain ⟨c, rest, rfl⟩ := List.exists_cons_of_ne_nil filled
    obtain ⟨digit, digits⟩ := List.forall_mem_cons.mp digits
    right
    rw [List.foldlM_cons, next?, first?_digit digit (by simpa using first)]
    exact @foldlM_digits whole (fun _ digit => if_pos digit) _ digits

theorem foldlM_shape {text : List Char} (shape : Numeral.Shape text) :
    ∃ last, text.foldlM next? minus = some last ∧ last.isComplete = true := by
  cases shape with
  | @positional whole fraction first isWhole isFraction =>
      refine ⟨.fraction, ?_, rfl⟩
      rw [List.foldlM_append]
      obtain start | start := foldlM_whole first isWhole <;>
        · rw [start]
          exact foldlM_fraction isFraction
  | @scientific lead sign fraction exponent first digit isFraction isSign isExponent =>
      refine ⟨.exponent, ?_, rfl⟩
      have signed : ([sign] ++ exponent).foldlM next? mark = some .exponent := by
        obtain rfl | rfl := isSign <;> exact foldlM_exponent isExponent
      rw [List.cons_append, List.foldlM_cons, next?, first?_digit digit first]
      obtain rfl | ⟨digits, rfl, isDigits⟩ := isFraction
      · exact signed
      · change (digits ++ 'e' :: sign :: exponent).foldlM next? point = _
        rw [List.foldlM_append, foldlM_fraction isDigits]
        exact signed

end Numeric

theorem isNumber_shape {text : List Char} (shape : Numeral.Shape text) :
    isNumber text = true ∧ isNumber ('-' :: text) = true := by
  obtain ⟨last, accepted, complete⟩ := Numeric.foldlM_shape shape
  obtain ⟨c, rest, rfl, digit⟩ := shape.head
  have unsigned : c ≠ '-' := by
    rintro rfl
    cases digit
  constructor
  · rw [isNumber, Numeric.start?, if_neg unsigned]
    rw [List.foldlM_cons] at accepted
    exact (Option.any_eq_true _ _).mpr ⟨last, accepted, complete⟩
  · exact (Option.any_eq_true _ _).mpr ⟨last, accepted, complete⟩

/-- The text of a finite double is a number. -/
theorem isNumber_write {x : Float} (finite : (x.isNaN || x.isInf) = false) :
    isNumber (Numeral.write x).toList = true := by
  rw [Bool.or_eq_false_iff] at finite
  obtain ⟨unsigned, signed⟩ := isNumber_shape (Numeral.shape_magnitude finite.1 finite.2)
  obtain ⟨sign, rfl | rfl, written⟩ := Numeral.toList_write x <;> rw [written]
  · exact unsigned
  · exact signed

end Reckoner.Text.Json
