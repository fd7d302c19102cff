import Reckoner.Proofs.Contract
import Reckoner.Proofs.Course

/-! # Lines of output

Whatever stands in a text, the records, the diagnostics and the faults of its evaluation are one line each, of printable
characters. So a stream holds one line for each record that is shown there, and a successful command ends its output with
one more, the value.
-/

namespace Reckoner

namespace Text

/-- The characters of the category of controls. -/
def isControl (c : Char) : Bool :=
  c.toNat < 0x20 || 0x7F ≤ c.toNat && c.toNat < 0xA0

/-- The characters of the categories of separators, but for the blank, which counts as printable. -/
def separators : List Char :=
  ['\u00a0', '\u1680', '\u2000', '\u2001', '\u2002', '\u2003', '\u2004', '\u2005', '\u2006', '\u2007', '\u2008', '\u2009',
   '\u200a', '\u2028', '\u2029', '\u202f', '\u205f', '\u3000']

/-- The characters that end a line. -/
def breaks : List Char :=
  ['\n', '\x0b', '\x0c', '\r', '\x1c', '\x1d', '\x1e', '\u0085', '\u2028', '\u2029']

/-- The lines of the characters to come, after those of a line begun before. A carriage return and a line feed end one line
together. -/
def linesAfter (begun : String) : List Char → List String
  | [] => if begun.isEmpty then [] else [begun]
  | '\r' :: '\n' :: rest => begun :: linesAfter "" rest
  | c :: rest => if c ∈ breaks then begun :: linesAfter "" rest else linesAfter (begun.push c) rest

def lines (text : String) : List String :=
  linesAfter "" text.toList

def isPrintable (text : String) : Bool :=
  text.toList.all Printable.isPrintable

/-- One line of printable characters, without controls and without separators but for blanks. -/
structure IsLine (text : String) : Prop where
  printable : isPrintable text = true
  controls : ∀ c ∈ text.toList, isControl c = false
  separators : ∀ c ∈ text.toList, c ∉ separators
  alone : lines (text ++ "\n") = [text]

namespace Printable

variable {c : Char}

/-- The ranges without a printable character that hold controls or separators. -/
def blankGaps : List (Nat × Nat) :=
  [(0x0080, 0x00A0), (0x1680, 0x1680), (0x1FFF, 0x200F), (0x2028, 0x202F), (0x205F, 0x206F), (0x2FFC, 0x3000)]

theorem blankGaps_subset : blankGaps ⊆ gaps := by
  have parts : ∀ range ∈ blankGaps, range ∈ gapsBelowOriya ∨ range ∈ gapsBelowPunctuation ∨ range ∈ gapsBelowYi := by
    decide
  intro range member
  simp only [gaps, List.mem_append]
  grind

theorem outside_of_isPrintable (printable : isPrintable c = true) :
    0x20 ≤ c.toNat ∧ c.toNat ≠ 0x7F ∧ ∀ range ∈ blankGaps, c.toNat < range.1 ∨ range.2 < c.toNat := by
  unfold isPrintable at printable
  split at printable
  · rename_i ascii
    have past : ∀ range ∈ blankGaps, 0x7F < range.1 := by decide
    exact ⟨of_decide_eq_true printable, by omega, fun range member => .inl (ascii.trans (past range member))⟩
  · simp only [Bool.and_eq_true, decide_eq_true_eq, Bool.not_eq_true', List.any_eq_false] at printable
    obtain ⟨past, outside⟩ := printable
    refine ⟨by omega, by omega, fun range member => ?_⟩
    have apart := outside range (blankGaps_subset member)
    omega

theorem isControl_of_isPrintable (printable : isPrintable c = true) : isControl c = false := by
  obtain ⟨least, notDelete, outside⟩ := outside_of_isPrintable printable
  have apart := outside (0x0080, 0x00A0) (by decide)
  simp only [isControl, Bool.or_eq_false_iff, Bool.and_eq_false_iff, decide_eq_false_iff_not]
  omega

theorem not_separator_of_isPrintable (printable : isPrintable c = true) : c ∉ separators := by
  have inside : ∀ c ∈ separators, (blankGaps.any fun range => range.1 ≤ c.toNat && c.toNat ≤ range.2) = true :=
    List.all_eq_true.mp rfl
  intro member
  obtain ⟨range, gap, within⟩ := List.any_eq_true.mp (inside c member)
  have apart := (outside_of_isPrintable printable).2.2 range gap
  simp only [Bool.and_eq_true, decide_eq_true_eq] at within
  omega

theorem not_break_of_isPrintable (printable : isPrintable c = true) : c ∉ breaks := by
  have sorts : ∀ c ∈ breaks, (isControl c || separators.contains c) = true := List.all_eq_true.mp rfl
  intro member
  have sort := sorts c member
  rw [isControl_of_isPrintable printable, Bool.false_or, List.contains_iff_mem] at sort
  exact not_separator_of_isPrintable printable sort

theorem isPrintable_of_isPlain (plain : Json.isPlain c = true) : isPrintable c = true := by
  simp only [Json.isPlain, Bool.and_eq_true, decide_eq_true_eq] at plain
  rw [isPrintable, if_pos plain.2]
  exact decide_eq_true plain.1

end Printable

theorem isPrintable_iff {text : String} : isPrintable text = true ↔ ∀ c ∈ text.toList, Printable.isPrintable c = true :=
  List.all_eq_true

@[simp] theorem isPrintable_append (first second : String) :
    isPrintable (first ++ second) = (isPrintable first && isPrintable second) := by
  simp [isPrintable]

theorem isPrintable_of_isPlain {text : String} (plain : ∀ c ∈ text.toList, Json.isPlain c = true) :
    isPrintable text = true :=
  isPrintable_iff.mpr fun c member => Printable.isPrintable_of_isPlain (plain c member)

theorem linesAfter_append {chars : List Char} (unbroken : ∀ c ∈ chars, c ∉ breaks) (begun : String) (rest : List Char) :
    linesAfter begun (chars ++ '\n' :: rest) = (begun ++ String.ofList chars) :: linesAfter "" rest := by
  induction chars generalizing begun with
  | nil => simp [linesAfter, breaks]
  | cons c chars ih =>
      obtain ⟨goesOn, unbroken⟩ := List.forall_mem_cons.mp unbroken
      have other : c ≠ '\r' := by
        rintro rfl
        exact goesOn (by decide)
      calc
        linesAfter begun (c :: (chars ++ '\n' :: rest)) = linesAfter (begun.push c) (chars ++ '\n' :: rest) := by
          rw [linesAfter.eq_3 _ _ _ (fun _ isReturn _ => other isReturn), if_neg goesOn]
        _ = (begun.push c ++ String.ofList chars) :: linesAfter "" rest := ih unbroken _
        _ = (begun ++ String.ofList (c :: chars)) :: linesAfter "" rest := by
          rw [String.ofList_cons, String.push_eq_append, String.append_assoc]

/-- Lines of printable characters come back. -/
theorem lines_unlines {written : List String} (printable : ∀ line ∈ written, isPrintable line = true) :
    lines (unlines written) = written := by
  induction written with
  | nil => rfl
  | cons line rest ih =>
      obtain ⟨first, printable⟩ := List.forall_mem_cons.mp printable
      have unbroken : ∀ c ∈ line.toList, c ∉ breaks := fun c member =>
        Printable.not_break_of_isPrintable (isPrintable_iff.mp first c member)
      have texts : (unlines (line :: rest)).toList = line.toList ++ '\n' :: (unlines rest).toList := by simp [unlines]
      rw [lines, texts, linesAfter_append unbroken, ← lines, ih printable]
      simp

/-- A carriage return and a line feed end one line, two breaks of other kinds end two. -/
example : lines "1\r\n2\u2028\n3" = ["1", "2", "", "3"] := by decide

theorem isLine_of_isPrintable {text : String} (printable : isPrintable text = true) : IsLine text := by
  have each := isPrintable_iff.mp printable
  exact {
    printable
    controls := fun c member => Printable.isControl_of_isPrintable (each c member)
    separators := fun c member => Printable.not_separator_of_isPrintable (each c member)
    alone := by simpa [unlines] using lines_unlines (List.forall_mem_singleton.mpr printable) }

/-! ## What is put into messages -/

@[simp] theorem isPrintable_natural (n : Nat) : isPrintable (natural n) = true := by
  refine isPrintable_of_isPlain fun c member => ?_
  rw [natural, String.toList_ofList] at member
  exact Json.isPlain_of_isDigit ((isDigits_toDigits n).digits c member)

namespace Quoted

theorem isPrintable_escape {mark : Char} (printable : Printable.isPrintable mark = true) (c : Char) :
    ∀ d ∈ escape mark c, Printable.isPrintable d = true := by
  have code (letter : Char) (isLetter : Json.isPlain letter = true) (width : Nat) :
      ∀ d ∈ '\\' :: letter :: padded 16 width c.toNat, Printable.isPrintable d = true := by
    intro d member
    apply Printable.isPrintable_of_isPlain
    simp only [List.mem_cons] at member
    obtain rfl | rfl | digit := member
    · rfl
    · exact isLetter
    · exact Json.isPlain_padded width _ d digit
  unfold escape
  split
  · rename_i marked
    rw [Bool.or_eq_true, decide_eq_true_iff, decide_eq_true_iff] at marked
    obtain rfl | rfl := marked
    · exact List.forall_mem_cons.mpr ⟨rfl, List.forall_mem_singleton.mpr printable⟩
    · exact List.all_eq_true.mp rfl
  · iterate 3
      split
      · exact List.all_eq_true.mp rfl
    split
    · exact List.forall_mem_singleton.mpr (by assumption)
    · split
      · exact code 'x' rfl 2
      · split
        · exact code 'u' rfl 4
        · exact code 'U' rfl 8

theorem isPrintable_mark (text : List Char) : Printable.isPrintable (mark text) = true := by
  unfold mark
  split <;> rfl

@[simp] theorem isPrintable_quote (text : String) : isPrintable (quote text) = true := by
  have printable := isPrintable_mark text.toList
  simp only [isPrintable_iff, quote, String.toList_ofList, List.cons_append, List.forall_mem_cons, List.forall_mem_append,
    List.forall_mem_flatMap]
  exact ⟨printable, fun c _ => isPrintable_escape printable c, printable, nofun⟩

end Quoted

end Text

open Text (IsLine isPrintable isPrintable_append lines)

@[simp] theorem Numeral.isPrintable_write (x : Float) : isPrintable (Numeral.write x) = true := by
  by_cases special : Numeral.write x ∈ Numeral.special
  · have all : ∀ text ∈ Numeral.special, isPrintable text = true := by decide
    exact all _ special
  · rw [Numeral.mem_special_iff, Bool.not_eq_true] at special
    exact Text.isPrintable_of_isPlain (Text.Json.isPlain_number (Text.Json.isNumber_write special))

@[simp] theorem Operator.isPrintable_label (op : Operator) : isPrintable op.label = true := by
  cases op with
  | sum op | product op => cases op <;> decide
  | factorial => decide

@[simp] theorem Token.isPrintable_label (token : Token) : isPrintable token.label = true := by
  cases token with
  | operator op => exact Operator.isPrintable_label op
  | operand value =>
      simp only [Token.label, isPrintable_append, Numeral.isPrintable_write]
      decide

theorem Text.isPrintable_intercalate {separator : String} (between : isPrintable separator = true) {parts : List String}
    (printable : ∀ part ∈ parts, isPrintable part = true) : isPrintable (separator.intercalate parts) = true := by
  induction parts with
  | nil => rfl
  | cons first rest ih =>
      obtain ⟨printed, printable⟩ := List.forall_mem_cons.mp printable
      cases rest with
      | nil => simpa using printed
      | cons second rest => simp [String.intercalate_cons_cons, printed, between, ih printable]

@[simp] theorem Token.isPrintable_listing (tokens : List Token) : isPrintable (Token.listing tokens) = true := by
  have labels : isPrintable (", ".intercalate (tokens.map Token.label)) = true := by
    refine Text.isPrintable_intercalate (by decide) ?_
    simp
  simp only [Token.listing, isPrintable_append, labels]
  decide

theorem Diagnostic.isPrintable_message (diagnostic : Diagnostic) : isPrintable diagnostic.message = true := by
  unfold Diagnostic.message
  cases diagnostic <;>
    simp only [Diagnostic.place, isPrintable_append, Text.Quoted.isPrintable_quote, Numeral.isPrintable_write,
      Text.isPrintable_natural, Operator.isPrintable_label] <;> decide

namespace Diagnostic

/-- The position of the operator that a diagnostic is about. -/
def position? : Diagnostic → Option Nat
  | factorialAt position | signAt position | productAt _ position => some position
  | evaluating _ | evaluated _ _ => none

theorem position?_isSome (diagnostic : Diagnostic) : diagnostic.position?.isSome = diagnostic.isPlace := by
  cases diagnostic <;> rfl

/-- The digits in what a diagnostic says of an operator are those of its position. -/
theorem digits_message {diagnostic : Diagnostic} {position : Nat} (about : diagnostic.position? = some position) :
    diagnostic.message.toList.filter Char.isDigit = Nat.toDigits 10 position := by
  have digits : (Text.natural position).toList.filter Char.isDigit = Nat.toDigits 10 position := by
    rw [Text.natural, String.toList_ofList, List.filter_eq_self.mpr (isDigits_toDigits position).digits]
  cases diagnostic with
  | evaluating | evaluated => cases about
  | factorialAt | signAt =>
      cases about
      simp [message, place, digits]
  | productAt op =>
      cases about
      cases op <;> simp [message, place, digits, Operator.label, Operator.name]

/-- So what is written tells the position: diagnostics that say the same of operators are about the same position. -/
theorem position?_eq_of_message {first second : Diagnostic} (isPlace : first.isPlace = true)
    (isPlace' : second.isPlace = true) (same : first.message = second.message) : first.position? = second.position? := by
  rw [← position?_isSome] at isPlace isPlace'
  obtain ⟨position, about⟩ := Option.isSome_iff_exists.mp isPlace
  obtain ⟨position', about'⟩ := Option.isSome_iff_exists.mp isPlace'
  have digits : Nat.toDigits 10 position = Nat.toDigits 10 position' := by
    rw [← digits_message about, same, digits_message about']
  have equal := congrArg (Nat.ofDigitChars 10 · 0) digits
  simp only [Nat.ofDigitChars_ten_toDigits] at equal
  rw [about, about', equal]

end Diagnostic

theorem Fault.isPrintable_detail (fault : Fault) : isPrintable fault.detail = true := by
  unfold Fault.detail
  cases fault with
  | unreadableLiteral literal =>
      simp only [isPrintable_append, Text.Quoted.isPrintable_quote]
      decide
  | danglingFactorial | danglingSign | lateFactorial | empty => decide
  | incompleteProduct op | incompleteSum op => cases op <;> decide
  | lateBeforeSums op =>
      cases op with
      | sum op | product op => cases op <;> decide
      | factorial => decide
  | unconnected count =>
      simp only [isPrintable_append, Text.isPrintable_natural]
      decide

theorem Fault.isPrintable_message (fault : Fault) : isPrintable fault.message = true := by
  have name : isPrintable fault.kind.name = true := by cases fault.kind <;> decide
  have colon : isPrintable ": " = true := by decide
  change isPrintable (if fault.detail.isEmpty then fault.kind.name else fault.kind.name ++ ": " ++ fault.detail) = true
  by_cases silent : fault.detail.isEmpty
  · rwa [if_pos silent]
  · rw [if_neg silent, isPrintable_append, isPrintable_append, name, colon, fault.isPrintable_detail]
    rfl

namespace Record

/-- What a record says in words of its own. -/
def wording : Record → String
  | stage name _ => name
  | step (.note message) => message
  | _ => ""

theorem isPrintable_rendering {record : Record} (worded : isPrintable record.wording = true) :
    isPrintable record.rendering = true := by
  unfold rendering Step.message
  cases record with
  | stage name tokens =>
      have named : isPrintable name = true := worded
      simp only [isPrintable_append, named, Token.isPrintable_listing]
      decide
  | ignored text =>
      simp only [isPrintable_append, Text.Quoted.isPrintable_quote]
      decide
  | finish => rfl
  | step told =>
      cases told with
      | note message => exact worded
      | start text =>
          simp only [isPrintable_append, Text.Quoted.isPrintable_quote]
          decide
      | factorial n round =>
          simp only [isPrintable_append, Numeral.isPrintable_write]
          decide

end Record

namespace Evaluation

/-- The names of the stages in the reports. -/
def wordings : List String :=
  ["", "compute", "resolve_unary", "resolve_mul_div", "resolve_add_sub"]

theorem wording_stages {text : String} {record : Record} (member : record ∈ stages text) : record.wording ∈ wordings := by
  have later {tokens : List Token} (member : record ∈ laterStages tokens) : record.wording ∈ wordings := by
    unfold laterStages at member
    split at member
    · cases member
    · split at member <;> simp only [List.mem_cons, List.not_mem_nil, or_false] at member
      · exact member ▸ (by decide : "resolve_mul_div" ∈ wordings)
      · obtain rfl | rfl := member
        · exact (by decide : "resolve_mul_div" ∈ wordings)
        · exact (by decide : "resolve_add_sub" ∈ wordings)
  cases read : (Scan.tokens text).outcome with
  | error =>
      rw [stages, read] at member
      cases member
  | ok tokens =>
      simp only [stages, read, records_ofTokens, List.mem_cons, List.mem_append] at member
      obtain rfl | rfl | round | member := member
      · exact (by decide : "compute" ∈ wordings)
      · exact (by decide : "resolve_unary" ∈ wordings)
      · have isRound := Signs.isRound_scan record round
        obtain ⟨n, round, rfl⟩ := Record.eq_of_isRound isRound
        exact List.mem_cons_self
      · exact later member

/-- The words of records never come from the text. -/
theorem wording_ofText {text : String} {record : Record} (member : record ∈ (ofText text).records) :
    record.wording ∈ wordings := by
  obtain ⟨skipped, heard⟩ := Scan.records_skipped text
  rw [records_ofText, heard] at member
  simp only [List.mem_cons, List.mem_append, List.mem_map, List.not_mem_nil, or_false] at member
  obtain rfl | (⟨c, -, rfl⟩ | staged) | rfl := member
  · exact List.mem_cons_self
  · exact List.mem_cons_self
  · exact wording_stages staged
  · exact List.mem_cons_self

theorem isPrintable_record {text : String} {record : Record} (member : record ∈ (ofText text).records) :
    isPrintable record.rendering = true := by
  have all : ∀ words ∈ wordings, isPrintable words = true := by decide
  exact Record.isPrintable_rendering (all _ (wording_ofText member))

end Evaluation

namespace Output

/-- What a piece of output shows. -/
def shown : Output → String
  | line _ text => text
  | entry _ message => message

end Output

theorem Gate.messages_eq (gate : Gate) (events : List Event) : gate.messages (events.filterMap Event.record?) =
    events.filterMap fun event => event.record?.bind (Console.line? gate) := by
  rw [← List.filterMap_filterMap, @filterMap_shown String gate _ id (Console.line?_eq gate), List.map_id]

theorem Gate.isPrintable_messages (gate : Gate) {records : List Record}
    (printable : ∀ record ∈ records, isPrintable record.rendering = true) :
    ∀ message ∈ gate.messages records, isPrintable message = true := by
  intro message member
  obtain ⟨record, shown, rfl⟩ := List.mem_map.mp member
  exact printable record (List.mem_of_mem_filter shown)

namespace Tracer

theorem isPrintable_run (tracer : Tracer) (text : String) {output : Output}
    (member : output ∈ (tracer.run (Evaluation.ofText text)).outputs) : isPrintable output.shown = true := by
  obtain ⟨event, told, shows⟩ := List.mem_filterMap.mp member
  cases event with
  | diagnostic diagnostic =>
      cases shows
      exact diagnostic.isPrintable_message
  | record record =>
      have printable := Evaluation.isPrintable_record (List.mem_filterMap.mpr ⟨_, told, rfl⟩)
      change tracer.ofRecord? record = some output at shows
      rw [ofRecord?_eq, Option.ite_none_right_eq_some] at shows
      obtain ⟨-, shows⟩ := shows
      cases destination : tracer.destination with
      | stream | channel =>
          rw [destination] at shows
          cases shows
          exact printable
      | nowhere =>
          rw [destination] at shows
          cases shows

/-- A stream gets the records that are shown, one line each. -/
theorem text_run {tracer : Tracer} {target : Stream} (writes : tracer.destination = .stream target) {α : Type} (x : Traced α) :
    Output.text target (tracer.run x).outputs = unlines (tracer.gate.messages x.records) := by
  rw [Output.text_eq_unlines, run, List.filterMap_filterMap, Traced.records, Gate.messages_eq]
  congr 2
  funext event
  cases event with
  | diagnostic => rfl
  | record record =>
      simp only [ofEvent?, ofRecord?, writes, write?, Event.record?, Option.bind_some]
      cases Console.line? tracer.gate record <;> simp [Output.lineOn?]

end Tracer

namespace CommandLine.Request

/-- The records that the trace on the console shows. -/
def shownRecords (request : Request) : List Record :=
  if request.backend = .console then request.evaluation.records.filter request.gate.shows else []

theorem mem_shownRecords {request : Request} {record : Record} (shown : record ∈ request.shownRecords) :
    record ∈ request.evaluation.records := by
  unfold shownRecords at shown
  split at shown
  · exact List.mem_of_mem_filter shown
  · cases shown

theorem trace_eq (request : Request) : request.trace = request.shownRecords.map Record.rendering := by
  by_cases console : request.backend = .console
  · have messages := request.gate.messages_eq request.evaluation.events
    rw [shownRecords, if_pos console]
    refine Eq.trans ?_ messages.symm
    rw [trace]
    congr 1
    funext event
    cases event with
    | diagnostic => rfl
    | record record => simp [traceLine?, console, Event.record?, Console.line?_eq]
  · have silent (event : Event) : request.traceLine? event = none := by cases event <;> simp [traceLine?, console]
    rw [shownRecords, if_neg console, trace, List.filterMap_eq_nil_iff.mpr fun event _ => silent event]
    rfl

/-- The output of a successful command is the trace and the value. -/
theorem lines_carryOut {request : Request} (plain : request.json = false) (success : request.carryOut.code = 0) :
    ∃ evaluation, request.evaluation.outcome = .ok evaluation ∧
      lines (request.carryOut.text .standardOutput) =
        request.shownRecords.map Record.rendering ++ [Numeral.write evaluation.value] := by
  have contract := contract_carryOut request
  obtain ⟨evaluation, ok⟩ := contract.success.mp success
  refine ⟨evaluation, ok, ?_⟩
  have last : Numeral.write evaluation.value ++ "\n" = unlines [Numeral.write evaluation.value] := by simp [unlines]
  rw [contract.plainOutput plain, ok, trace_eq]
  dsimp only
  rw [last, ← unlines_append, Text.lines_unlines]
  rw [List.forall_mem_append, List.forall_mem_singleton]
  refine ⟨fun line member => ?_, Numeral.isPrintable_write evaluation.value⟩
  obtain ⟨record, shown, rfl⟩ := List.mem_map.mp member
  exact Evaluation.isPrintable_record (mem_shownRecords shown)

end CommandLine.Request

/-- Whatever stands in a text, the records, the diagnostics and the fault of its evaluation are single lines of printable
characters, under every tracer. So there are as many lines of trace as records are shown, and a successful command that
writes no document has one more on its standard output, the value. -/
theorem lines_not_forged :
    (∀ text,
      (∀ record ∈ (Evaluation.ofText text).records, IsLine record.rendering) ∧
      (∀ diagnostic ∈ (Evaluation.ofText text).diagnostics, IsLine diagnostic.message) ∧
      (∀ fault, (Evaluation.ofText text).outcome = .error fault → IsLine fault.message) ∧
      (∀ tracer : Tracer, (∀ output ∈ (tracer.run (Evaluation.ofText text)).outputs, IsLine output.shown) ∧
        ∀ target, tracer.destination = .stream target →
          lines (Output.text target (tracer.run (Evaluation.ofText text)).outputs) =
            tracer.gate.messages (Evaluation.ofText text).records) ∧
      ∀ verbosity thresholds, ∃ run, Settings.evaluate ⟨verbosity, thresholds, Backend.console.name⟩ text = .ok run ∧
        (lines (Output.text .standardOutput run.outputs)).length =
          (Evaluation.ofText text).records.countP (Gate.mk verbosity thresholds).shows) ∧
    ∀ convention arguments request exit, CommandLine.Request.ofArguments convention arguments = .ok request →
      CommandLine.run convention arguments = .ok exit → request.json = false → exit.code = 0 →
      ∃ evaluation, (Evaluation.ofText request.calculation).outcome = .ok evaluation ∧
        lines (exit.text .standardOutput) =
          request.shownRecords.map Record.rendering ++ [Numeral.write evaluation.value] ∧
        (lines (exit.text .standardOutput)).length = request.shownRecords.length + 1 := by
  have stream (text : String) (tracer : Tracer) (target : Stream) (writes : tracer.destination = .stream target) :
      lines (Output.text target (tracer.run (Evaluation.ofText text)).outputs) =
        tracer.gate.messages (Evaluation.ofText text).records := by
    rw [Tracer.text_run writes, Text.lines_unlines]
    exact tracer.gate.isPrintable_messages fun _ => Evaluation.isPrintable_record
  refine ⟨fun text => ⟨?records, ?diagnostics, ?fault, fun tracer => ⟨?outputs, stream text tracer⟩, ?console⟩, ?command⟩
  case records => exact fun _ member => Text.isLine_of_isPrintable (Evaluation.isPrintable_record member)
  case diagnostics => exact fun diagnostic _ => Text.isLine_of_isPrintable diagnostic.isPrintable_message
  case fault => exact fun fault _ => Text.isLine_of_isPrintable fault.isPrintable_message
  case outputs => exact fun _ member => Text.isLine_of_isPrintable (tracer.isPrintable_run text member)
  case console =>
    intro verbosity thresholds
    refine ⟨_, rfl, ?_⟩
    rw [stream text _ .standardOutput rfl, Gate.messages, List.length_map, List.countP_eq_length_filter]
  case command =>
    intro convention arguments request exit asked runs plain success
    simp only [CommandLine.run, asked] at runs
    cases runs
    obtain ⟨evaluation, ok, output⟩ := CommandLine.Request.lines_carryOut plain success
    refine ⟨evaluation, ok, output, ?_⟩
    rw [output, List.length_append, List.length_map]
    rfl

/-- A line feed in a text is shown escaped. -/
theorem line_feed_shown :
    IsLine (Record.step (.start "1\n+2")).rendering ∧ IsLine (Diagnostic.evaluating "1\n+2").message ∧
      (∃ fault, (Evaluation.ofText ".\n.").outcome = .error fault ∧ IsLine fault.message) ∧
      (∃ output ∈ (Tracer.run ⟨.stream .buffer, ⟨2, {}⟩⟩ (Evaluation.ofText "1\n+2")).outputs, IsLine output.shown) ∧
      lines (Output.text .buffer (Tracer.run ⟨.stream .buffer, ⟨2, {}⟩⟩ (Evaluation.ofText "1\n+2")).outputs) =
        Gate.messages ⟨2, {}⟩ (Evaluation.ofText "1\n+2").records ∧
      ∃ exit evaluation, CommandLine.Request.ofArguments .strict ["-vv", "1\n+2"] = .ok ⟨"1\n+2", 2, false, .console⟩ ∧
        CommandLine.run .strict ["-vv", "1\n+2"] = .ok exit ∧ exit.code = 0 ∧
        (Evaluation.ofText "1\n+2").outcome = .ok evaluation ∧
        lines (exit.text .standardOutput) =
          (CommandLine.Request.shownRecords ⟨"1\n+2", 2, false, .console⟩).map Record.rendering ++
            [Numeral.write evaluation.value] := by
  obtain ⟨texts, commands⟩ := lines_not_forged
  obtain ⟨records, diagnostics, -, tracers, -⟩ := texts "1\n+2"
  obtain ⟨outputs, streams⟩ := tracers ⟨.stream .buffer, ⟨2, {}⟩⟩
  refine ⟨records _ ?start, diagnostics _ ?evaluating, ?fault, ?output, streams .buffer rfl, ?command⟩
  case start =>
    rw [Evaluation.records_ofText]
    exact List.mem_cons_self
  case evaluating =>
    rw [Evaluation.diagnostics_ofText]
    exact List.mem_cons_self
  case fault =>
    have fails : (Evaluation.ofText ".\n.").outcome.toOption.isNone = true := by decide +kernel
    cases outcome : (Evaluation.ofText ".\n.").outcome with
    | error fault => exact ⟨fault, rfl, (texts ".\n.").2.2.1 fault outcome⟩
    | ok evaluation =>
        rw [outcome] at fails
        cases fails
  case output =>
    have shows : (Tracer.run ⟨.stream .buffer, ⟨2, {}⟩⟩ (Evaluation.ofText "1\n+2")).outputs ≠ [] := by decide +kernel
    obtain ⟨output, member⟩ := List.exists_mem_of_ne_nil _ shows
    exact ⟨output, member, outputs output member⟩
  case command =>
    have asked : CommandLine.Request.ofArguments .strict ["-vv", "1\n+2"] = .ok ⟨"1\n+2", 2, false, .console⟩ := by
      decide +kernel
    have succeeds : (CommandLine.run .strict ["-vv", "1\n+2"]).toOption.any (·.code == 0) = true := by decide +kernel
    cases runs : CommandLine.run .strict ["-vv", "1\n+2"] with
    | error refused =>
        rw [runs] at succeeds
        cases succeeds
    | ok exit =>
        rw [runs] at succeeds
        have success : exit.code = 0 := beq_iff_eq.mp succeeds
        obtain ⟨evaluation, ok, output, -⟩ := commands _ _ _ exit asked runs rfl success
        exact ⟨exit, evaluation, asked, rfl, success, ok, output⟩

end Reckoner
