import Reckoner.Proofs.Guards

/-! # The course of an evaluation

What an evaluation reports, from its announcement to its end: the characters that are skipped, the stages as far as they
get, each with its tokens, and the diagnostics of its parts.
-/

namespace Reckoner

namespace Record

def isStage : Record → Bool
  | stage _ _ => true
  | _ => false

def isFinish : Record → Bool
  | finish => true
  | _ => false

def isRound : Record → Bool
  | step (.factorial _ _) => true
  | _ => false

theorem eq_of_isRound {record : Record} (round : record.isRound = true) :
    ∃ n round, record = .step (.factorial n round) := by
  unfold isRound at round
  split at round
  · exact ⟨_, _, rfl⟩
  · cases round

def skip (c : Char) : Record := ignored (String.singleton c)

end Record

def Diagnostic.isPlace : Diagnostic → Bool
  | factorialAt _ | signAt _ | productAt _ _ => true
  | _ => false

namespace Scan

def skipped (chars : List Char) : List Char :=
  chars.filter (!isKept ·)

/-- The end of the text or an operator symbol. -/
def Closes : List Char → Prop
  | [] => True
  | c :: _ => ∃ op, Operator.ofChar? c = some op

/-- After the characters `gathered` for a literal, scanning stops between `before` and `after`, where the first literal
that is no number is closed. -/
structure Halts (gathered before after literal : List Char) : Prop where
  closes : Closes after
  isLiteral : literal.all isLiteral = true
  malformed : isNumber literal = false
  first : ∃ earlier, (gathered ++ before.filter isKept).splitBy together = earlier ++ [literal] ∧
    ∀ lexeme ∈ earlier, lexeme.all Scan.isLiteral = true → isNumber lexeme = true

theorem skipped_kept {c : Char} (kept : isKept c = true) (rest : List Char) : skipped (c :: rest) = skipped rest :=
  List.filter_cons_of_neg (by simp [kept])

theorem skipped_other {c : Char} (dropped : isKept c = false) (rest : List Char) :
    skipped (c :: rest) = c :: skipped rest :=
  List.filter_cons_of_pos (by simp [dropped])

theorem isKept_eq_false {c : Char} (other : ¬isLiteral c = true) (none : Operator.ofChar? c = none) :
    isKept c = false := by
  rw [Bool.eq_false_iff, Ne, isKept_iff]
  simp [other, none]

namespace Halts

variable {gathered before after literal : List Char} {c : Char}

theorem digit (halts : Halts (gathered ++ [c]) before after literal) (digit : Scan.isLiteral c = true) :
    Halts gathered (c :: before) after literal := by
  obtain ⟨closes, isLiteral, malformed, first⟩ := halts
  refine ⟨closes, isLiteral, malformed, ?_⟩
  rwa [List.filter_cons_of_pos (isKept_iff.mpr (.inl digit)), List.append_cons]

theorem skip (halts : Halts gathered before after literal) (dropped : isKept c = false) :
    Halts gathered (c :: before) after literal := by
  obtain ⟨closes, isLiteral, malformed, first⟩ := halts
  refine ⟨closes, isLiteral, malformed, ?_⟩
  rwa [List.filter_cons_of_neg (by simp [dropped])]

theorem operator (halts : Halts [] before after literal) {op : Operator} (found : Operator.ofChar? c = some op)
    (other : ¬Scan.isLiteral c = true) (numbers : ∀ lexeme ∈ gathered.splitBy together, isNumber lexeme = true) :
    Halts gathered (c :: before) after literal := by
  obtain ⟨closes, isLiteral, malformed, earlier, splits, first⟩ := halts
  refine ⟨closes, isLiteral, malformed, gathered.splitBy together ++ [c] :: earlier, ?_, ?_⟩
  · rw [List.filter_cons_of_pos (isKept_iff.mpr (.inr ⟨op, found⟩)), splitBy_operator (Bool.eq_false_iff.mpr other)]
    rw [List.nil_append] at splits
    simp [splits]
  · intro lexeme member all
    simp only [List.mem_append, List.mem_cons] at member
    obtain held | rfl | later := member
    · exact numbers lexeme held
    · simp [other] at all
    · exact first lexeme later all

end Halts

theorem records_gather {literal : String} {c : Char} {rest : List Char} (digit : isLiteral c = true) :
    (scan literal (c :: rest)).records = (scan (literal.push c) rest).records := by
  rw [scan, work, if_pos digit]

theorem records_skip {literal : String} {c : Char} {rest : List Char} (other : ¬isLiteral c = true)
    (none : Operator.ofChar? c = none) : (scan literal (c :: rest)).records = Record.skip c :: (scan literal rest).records := by
  rw [scan, work, if_neg other]
  simp only [none, Handler.traced_tell, Traced.records_bind, Traced.records_tell, Traced.outcome_tell]
  rfl

theorem records_operator {literal : String} {c : Char} {rest : List Char} {op : Operator} (other : ¬isLiteral c = true)
    (found : Operator.ofChar? c = some op) :
    (scan literal (c :: rest)).records = match close literal with
      | .ok _ => (scan "" rest).records
      | .error _ => [] := by
  rw [scan, work, if_neg other]
  simp only [found, Handler.traced_ofExcept, Traced.records_bind, Traced.records_ofExcept, Traced.outcome_ofExcept,
    Traced.records_map]
  cases close literal <;> rfl

theorem records_quiet {literal : String} {chars : List Char} {output : List Token} (h : quiet literal chars = .ok output) :
    (scan literal chars).records = (skipped chars).map Record.skip := by
  fun_induction quiet literal chars generalizing output with
  | case1 => rfl
  | case2 literal c rest digit ih => rw [records_gather digit, ih h, skipped_kept (isKept_iff.mpr (.inl digit))]
  | case3 literal c rest other none ih =>
      rw [records_skip other none, ih h, skipped_other (isKept_eq_false other none)]
      rfl
  | case4 literal c rest other op found ih =>
      obtain ⟨closed, closes, tail⟩ := Except.bind_eq_ok.mp h
      obtain ⟨output, run, rfl⟩ := Except.map_eq_ok.mp tail
      rw [records_operator other found, closes, skipped_kept (isKept_iff.mpr (.inr ⟨op, found⟩))]
      exact ih run

theorem close_eq_error {literal : String} {fault : Fault} (all : ∀ c ∈ literal.toList, isLiteral c = true)
    (h : close literal = .error fault) :
    fault = .unreadableLiteral literal ∧ isNumber literal.toList = false ∧ literal.toList ≠ [] := by
  unfold close at h
  split at h
  · cases h
  · rename_i filled
    split at h
    · cases h
    · rename_i unread
      cases h
      refine ⟨rfl, ?_, by simpa using filled⟩
      rw [← read?_isSome all, unread]
      rfl

theorem isNumber_of_close {literal : String} {closed : List Token} (all : ∀ c ∈ literal.toList, isLiteral c = true)
    (h : close literal = .ok closed) : ∀ lexeme ∈ literal.toList.splitBy together, isNumber lexeme = true := by
  unfold close at h
  rw [splitBy_literal all]
  split at h
  · rename_i empty
    simp [String.isEmpty_iff.mp empty]
  · split at h
    · rename_i d read
      have number : isNumber literal.toList = true := by rw [← read?_isSome all, read]; rfl
      split <;> simp [number]
    · cases h

/-- A literal is refused where it is closed, at the end or at an operator symbol. -/
theorem halts_of_close {literal : String} {fault : Fault} (all : ∀ c ∈ literal.toList, isLiteral c = true)
    (h : close literal = .error fault) (after : List Char) (closes : Closes after) :
    Halts literal.toList [] after literal.toList ∧ fault = .unreadableLiteral (String.ofList literal.toList) := by
  obtain ⟨rfl, malformed, filled⟩ := close_eq_error all h
  refine ⟨⟨closes, List.all_eq_true.mpr all, malformed, [], ?_, by simp⟩, by simp⟩
  rw [List.filter_nil, List.append_nil, splitBy_literal all]
  simp [filled]

/-- Scanning hears nothing after the place where it stops. -/
theorem records_of_error {literal : String} {chars : List Char} {fault : Fault}
    (all : ∀ c ∈ literal.toList, isLiteral c = true) (h : quiet literal chars = .error fault) :
    ∃ before after malformed, chars = before ++ after ∧ Halts literal.toList before after malformed ∧
      fault = .unreadableLiteral (String.ofList malformed) ∧
      (scan literal chars).records = (skipped before).map Record.skip := by
  -- The literal that stops the scan may have begun before `chars`, so the characters gathered for it go along.
  fun_induction quiet literal chars generalizing fault with
  | case1 literal =>
      obtain ⟨halts, rfl⟩ := halts_of_close all h [] trivial
      exact ⟨[], [], _, rfl, halts, rfl, rfl⟩
  | case2 literal c rest digit ih =>
      have pushed : (literal.push c).toList = literal.toList ++ [c] := String.toList_push c
      have gathered : ∀ d ∈ (literal.push c).toList, isLiteral d = true := by
        rw [pushed, List.forall_mem_append]
        exact ⟨all, by simpa using digit⟩
      obtain ⟨before, after, malformed, rfl, halts, rfl, heard⟩ := ih gathered h
      rw [pushed] at halts
      refine ⟨c :: before, after, malformed, rfl, halts.digit digit, rfl, ?_⟩
      rw [records_gather digit, heard, skipped_kept (isKept_iff.mpr (.inl digit))]
  | case3 literal c rest other none ih =>
      have dropped : isKept c = false := isKept_eq_false other none
      obtain ⟨before, after, malformed, rfl, halts, rfl, heard⟩ := ih all h
      refine ⟨c :: before, after, malformed, rfl, halts.skip dropped, rfl, ?_⟩
      rw [records_skip other none, heard, skipped_other dropped]
      rfl
  | case4 literal c rest other op found ih =>
      obtain closes | ⟨closed, closes, tail⟩ := Except.bind_eq_error.mp h
      · obtain ⟨halts, rfl⟩ := halts_of_close all closes (c :: rest) ⟨op, found⟩
        refine ⟨[], c :: rest, _, rfl, halts, rfl, ?_⟩
        rw [records_operator other found, closes]
        rfl
      · obtain ⟨before, after, malformed, rfl, halts, rfl, heard⟩ := ih (by simp) (Except.map_eq_error.mp tail)
        -- The literal before this operator is a number, so the one that stops the scan is still the first.
        refine ⟨c :: before, after, malformed, rfl, halts.operator found other (isNumber_of_close all closes), rfl, ?_⟩
        rw [records_operator other found, closes, skipped_kept (isKept_iff.mpr (.inr ⟨op, found⟩))]
        exact heard

theorem records_skipped (text : String) : ∃ skipped : List Char, (tokens text).records = skipped.map Record.skip := by
  cases h : quiet "" text.toList with
  | ok output => exact ⟨_, records_quiet h⟩
  | error fault =>
      obtain ⟨before, -, -, -, -, -, heard⟩ := records_of_error (by simp) h
      exact ⟨_, heard⟩

theorem diagnostics_scan (literal : String) (chars : List Char) : (scan literal chars).diagnostics = [] := by
  induction chars generalizing literal with
  | nil => rfl
  | cons c rest ih =>
      rw [scan, work]
      split
      · exact ih (literal.push c)
      · cases Operator.ofChar? c with
        | none => exact ih literal
        | some op =>
            simp only [Handler.traced_ofExcept, Traced.diagnostics_bind, Traced.diagnostics_ofExcept,
              Traced.diagnostics_map, ih]
            split <;> rfl

theorem diagnostics_tokens (text : String) : (tokens text).diagnostics = [] :=
  diagnostics_scan "" text.toList

end Scan

namespace Signs

theorem isRound_factorial (n : Float) : ∀ record ∈ (factorial n).records, record.isRound = true := by
  intro record member
  rw [records_factorial, List.mem_map] at member
  obtain ⟨round, -, rfl⟩ := member
  rfl

/-- The stage reports nothing but the rounds of its factorials. -/
theorem isRound_scan {position : Nat} {held : Option Float} {tokens : List Token} :
    ∀ record ∈ (scan position held tokens).records, record.isRound = true := by
  unfold scan
  fun_induction work Handler.traced position held tokens with
  | case1 | case4 | case8 => exact List.forall_mem_nil _
  | case2 position held value rest ih | case5 position held value rest ih | case9 position held value rest ih =>
      rwa [Traced.records_map]
  | case3 position value rest ih =>
      rw [Traced.records_bind, outcome_factorial, List.forall_mem_append]
      exact ⟨isRound_factorial value, ih _⟩
  | case6 position rest ih => exact ih
  | case7 position value rest ih => exact ih

/-- The stage tells one position if it stops, and none if it does not. -/
theorem places_resolve (tokens : List Token) :
    (∀ output, (resolve tokens).outcome = .ok output → (resolve tokens).diagnostics = []) ∧
      ∀ fault, (resolve tokens).outcome = .error fault →
        ∃ place, (resolve tokens).diagnostics = [place] ∧ place.isPlace = true := by
  change (∀ output, (scan 0 none tokens).outcome = .ok output → (scan 0 none tokens).diagnostics = []) ∧
    ∀ fault, (scan 0 none tokens).outcome = .error fault →
      ∃ place, (scan 0 none tokens).diagnostics = [place] ∧ place.isPlace = true
  obtain ⟨stops, tells⟩ := @scan_locate 0 none tokens none rfl
  cases located : View.locate View.signFault? 0 (views none tokens) with
  | none =>
      rw [located] at stops tells
      refine ⟨fun output _ => tells, fun fault h => ?_⟩
      rw [h] at stops
      cases stops
  | some found =>
      obtain ⟨i, sign⟩ := found
      rw [located] at stops tells
      refine ⟨fun output h => ?_, fun fault _ => ⟨_, tells, by cases sign <;> rfl⟩⟩
      rw [h] at stops
      cases stops

end Signs

namespace Products

theorem records_scan (position : Nat) (held : Option Float) (tokens : List Token) :
    (scan position held tokens).records = [] := by
  unfold scan
  fun_induction work Handler.traced position held tokens with
  | case1 | case4 | case6 => rfl
  | case2 | case5 => rwa [Traced.records_map]
  | case3 position left op right rest ih =>
      rw [Handler.traced_operate rfl, pure_bind]
      exact ih _

theorem places_scan (position : Nat) (held : Option Float) (tokens : List Token) :
    (∀ output, (scan position held tokens).outcome = .ok output → (scan position held tokens).diagnostics = []) ∧
      ∀ fault, (scan position held tokens).outcome = .error fault → fault.kind = .misplacedOperator →
        ∃ place, (scan position held tokens).diagnostics = [place] ∧ place.isPlace = true := by
  unfold scan
  fun_induction work Handler.traced position held tokens with
  | case1 =>
      refine ⟨fun _ _ => rfl, fun _ h => ?_⟩
      cases h
  | case2 position held value rest ih | case5 position held value rest ih =>
      simp only [Traced.outcome_map, Traced.diagnostics_map, Except.map_eq_error, Except.map_eq_ok]
      refine ⟨fun _ h => ?_, ih.2⟩
      obtain ⟨output, run, -⟩ := h
      exact ih.1 output run
  | case3 position left op right rest ih =>
      rw [Handler.traced_operate rfl, pure_bind]
      exact ih _
  | case4 position held op rest incomplete =>
      refine ⟨fun _ h => ?_, fun _ _ _ => ⟨_, rfl, rfl⟩⟩
      cases h
  | case6 =>
      constructor
      · intro _ h
        cases h
      · intro _ h kind
        cases h
        cases kind

theorem places_resolve (tokens : List Token) :
    (∀ output, (resolve tokens).outcome = .ok output → (resolve tokens).diagnostics = []) ∧
      ∀ fault, (resolve tokens).outcome = .error fault → fault.kind = .misplacedOperator →
        ∃ place, (resolve tokens).diagnostics = [place] ∧ place.isPlace = true :=
  places_scan 0 none tokens

end Products

namespace Evaluation

/-- How far an evaluation gets: the last of its parts that starts. -/
inductive Progress where
  | scan
  | signs
  | products
  | sums
  deriving DecidableEq

namespace Progress

/-- How many lists of tokens are reported by then. The first stage reports what has been reported before it. -/
def stages : Progress → Nat
  | scan => 0
  | signs => 2
  | products => 3
  | sums => 4

/-- The kind of the faults that occur there. -/
def kind : Progress → Kind
  | scan => .unreadableNumber
  | signs | products => .misplacedOperator
  | sums => .unknown

theorem stages_injective : Function.Injective stages := by
  rintro (_ | _ | _ | _) (_ | _ | _ | _) <;> decide

theorem kind_eq_unreadable {progress : Progress} : progress.kind = .unreadableNumber ↔ progress = .scan := by
  cases progress <;> decide

theorem kind_eq_unknown {progress : Progress} : progress.kind = .unknown ↔ progress = .sums := by
  cases progress <;> decide

end Progress

def progress (text : String) : Progress :=
  match (Scan.tokens text).outcome with
  | .error _ => .scan
  | .ok tokens =>
    match (Signs.resolve tokens).outcome with
    | .error _ => .signs
    | .ok binary =>
      match (Products.resolve binary).outcome with
      | .error _ => .products
      | .ok _ => .sums

/-- The ways that an evaluation can take, each with how far it gets and what it comes to. -/
inductive Course (text : String) : Progress → Except Fault Evaluation → Prop where
  | unread {fault : Fault} (read : (Scan.tokens text).outcome = .error fault) : Course text .scan (.error fault)
  | stopsAtSigns {tokens : List Token} {fault : Fault} (read : (Scan.tokens text).outcome = .ok tokens)
      (signs : (Signs.resolve tokens).outcome = .error fault) : Course text .signs (.error fault)
  | stopsAtProducts {tokens binary : List Token} {fault : Fault} (read : (Scan.tokens text).outcome = .ok tokens)
      (signs : (Signs.resolve tokens).outcome = .ok binary)
      (products : (Products.resolve binary).outcome = .error fault) : Course text .products (.error fault)
  | getsToSums {tokens binary sums : List Token} (read : (Scan.tokens text).outcome = .ok tokens)
      (signs : (Signs.resolve tokens).outcome = .ok binary) (products : (Products.resolve binary).outcome = .ok sums) :
      Course text .sums ((Sums.resolve sums).outcome.map fun value => ⟨value, tokens⟩)

theorem course (text : String) : Course text (progress text) (ofText text).outcome := by
  rw [progress, outcome_ofText]
  cases read : (Scan.tokens text).outcome with
  | error => exact .unread read
  | ok tokens =>
      simp only [Except.bind, ofTokens_eq, Traced.outcome_bind]
      cases signs : (Signs.resolve tokens).outcome with
      | error => exact .stopsAtSigns read signs
      | ok binary =>
          dsimp only
          cases products : (Products.resolve binary).outcome with
          | error => exact .stopsAtProducts read signs products
          | ok sums => exact .getsToSums read signs products

namespace Course

variable {text : String} {progress : Progress} {outcome : Except Fault Evaluation}

theorem kind (course : Course text progress outcome) {fault : Fault} (stops : outcome = .error fault) :
    fault.kind = progress.kind := by
  cases course with
  | unread read =>
      cases stops
      obtain ⟨literal, -, rfl⟩ := Option.map_eq_some_iff.mp (Scan.error?_tokens text ▸ Except.error?_eq_some.mpr read)
      rfl
  | stopsAtSigns read signs =>
      cases stops
      exact StopsAtSigns.kind signs
  | stopsAtProducts read signs products =>
      cases stops
      exact StopsAtProducts.kind ⟨_, signs, products⟩
  | getsToSums read signs products =>
      exact StopsAtSums.kind ⟨_, _, signs, products, Except.map_eq_error.mp stops⟩

theorem stops (course : Course text progress outcome) (early : progress ≠ .sums) : ∃ fault, outcome = .error fault := by
  cases course with
  | unread | stopsAtSigns | stopsAtProducts => exact ⟨_, rfl⟩
  | getsToSums => exact (early rfl).elim

theorem kind_iff (course : Course text progress outcome) {kind : Kind} (early : kind ≠ .unknown) :
    progress.kind = kind ↔ ∃ fault, outcome = .error fault ∧ fault.kind = kind := by
  constructor
  · rintro rfl
    obtain ⟨fault, stops⟩ := course.stops (mt Progress.kind_eq_unknown.mpr early)
    exact ⟨fault, stops, course.kind stops⟩
  · rintro ⟨fault, stops, same⟩
    exact (course.kind stops).symm.trans same

theorem signs_iff (course : Course text progress outcome) : progress = .signs ↔
    ∃ tokens fault, (Scan.tokens text).outcome = .ok tokens ∧ StopsAtSigns tokens fault := by
  cases course with
  | unread read => simp [read]
  | stopsAtSigns read signs => simp [read, signs, StopsAtSigns]
  | stopsAtProducts read signs | getsToSums read signs => simp [read, signs, StopsAtSigns]

theorem products_iff (course : Course text progress outcome) : progress = .products ↔
    ∃ tokens fault, (Scan.tokens text).outcome = .ok tokens ∧ StopsAtProducts tokens fault := by
  cases course with
  | unread read => simp [read]
  | stopsAtSigns read signs => simp [read, signs, StopsAtProducts]
  | stopsAtProducts read signs products | getsToSums read signs products =>
      simp [read, signs, products, StopsAtProducts]

theorem sums_iff (course : Course text progress outcome) : progress = .sums ↔
    (∃ evaluation, outcome = .ok evaluation) ∨ ∃ fault, outcome = .error fault ∧ fault.kind = .unknown := by
  constructor
  · rintro rfl
    cases outcome with
    | ok evaluation => exact .inl ⟨evaluation, rfl⟩
    | error fault => exact .inr ⟨fault, rfl, course.kind rfl⟩
  · rintro (⟨evaluation, rfl⟩ | ⟨fault, rfl, unknown⟩)
    · by_contra early
      obtain ⟨fault, impossible⟩ := course.stops early
      cases impossible
    · exact Progress.kind_eq_unknown.mp ((course.kind rfl).symm.trans unknown)

end Course

/-- The stages after the first, each with the tokens that the one before has left. -/
def laterStages (tokens : List Token) : List Record :=
  match (Signs.resolve tokens).outcome with
  | .error _ => []
  | .ok binary =>
    .stage "resolve_mul_div" binary ::
      match (Products.resolve binary).outcome with
      | .error _ => []
      | .ok sums => [.stage "resolve_add_sub" sums]

theorem records_ofTokens (tokens : List Token) : (ofTokens tokens).records =
    .stage "resolve_unary" tokens :: ((Signs.scan 0 none tokens).records ++ laterStages tokens) := by
  rw [ofTokens_eq, laterStages, Traced.records_bind]
  have signs : (Signs.resolve tokens).records =
      .stage "resolve_unary" tokens :: (Signs.scan 0 none tokens).records := by
    rw [Signs.resolve_eq, Traced.records_bind]
    rfl
  rw [signs, List.cons_append]
  cases (Signs.resolve tokens).outcome with
  | error => rfl
  | ok binary =>
      have products : (Products.resolve binary).records = [.stage "resolve_mul_div" binary] := by
        rw [Products.resolve_eq, Traced.records_bind, Traced.outcome_tell, Products.records_scan]
        rfl
      simp only [Traced.records_bind, products]
      cases (Products.resolve binary).outcome with
      | error => rfl
      | ok sums => simp

/-- What is reported of the tokens of a text, if it has any. -/
def stages (text : String) : List Record :=
  match (Scan.tokens text).outcome with
  | .error _ => []
  | .ok tokens => .stage "compute" tokens :: (ofTokens tokens).records

theorem records_ofText (text : String) :
    (ofText text).records = .step (.start text) :: ((Scan.tokens text).records ++ stages text ++ [.finish]) := by
  have between : (unannounced text).records = (Scan.tokens text).records ++ stages text := by
    rw [unannounced_eq, stages, Traced.records_bind]
    congr 1
    cases (Scan.tokens text).outcome with
    | error => rfl
    | ok tokens =>
        simp only [Traced.records_bind, Traced.records_tell, Traced.outcome_tell]
        cases (ofTokens tokens).outcome <;> simp
  rw [ofText]
  simp only [Traced.records_bind, Traced.records_tell, Traced.outcome_tell, Traced.records_note, Traced.outcome_note,
    Traced.records_closing, Traced.outcome_closing, between]
  cases (unannounced text).outcome <;> simp

theorem countP_stages (text : String) : (stages text).countP Record.isStage = (progress text).stages := by
  -- Between the stages there is nothing but rounds.
  have quiet (tokens : List Token) : (Signs.scan 0 none tokens).records.countP Record.isStage = 0 := by
    rw [List.countP_eq_zero]
    intro record member isStage
    cases record <;> cases isStage
    cases Signs.isRound_scan _ member
  have way := course text
  generalize progress text = progress, (ofText text).outcome = outcome at way
  cases way with
  | unread read => simp [stages, read, Progress.stages]
  | stopsAtSigns read signs =>
      simp [stages, read, records_ofTokens, laterStages, signs, quiet, List.countP_cons, Record.isStage, Progress.stages]
  | stopsAtProducts read signs products | getsToSums read signs products =>
      simp [stages, read, records_ofTokens, laterStages, signs, products, quiet, List.countP_cons, Record.isStage,
        Progress.stages]

theorem diagnostics_unannounced (text : String) : (unannounced text).diagnostics =
    match (Scan.tokens text).outcome with
    | .ok tokens => (ofTokens tokens).diagnostics
    | .error _ => [] := by
  rw [unannounced_eq, Traced.diagnostics_bind, Scan.diagnostics_tokens, List.nil_append]
  cases (Scan.tokens text).outcome with
  | error => rfl
  | ok tokens =>
      simp only [Traced.diagnostics_bind, Traced.diagnostics_tell, Traced.outcome_tell]
      cases (ofTokens tokens).outcome <;> simp

theorem places_unannounced (text : String) :
    ((progress text).kind = .misplacedOperator →
        ∃ place, (unannounced text).diagnostics = [place] ∧ place.isPlace = true) ∧
      ((progress text).kind ≠ .misplacedOperator → (unannounced text).diagnostics = []) := by
  have way := course text
  rw [diagnostics_unannounced]
  generalize progress text = progress, (ofText text).outcome = outcome at way
  cases way with
  | unread read => simp [read, Progress.kind]
  | stopsAtSigns read signs =>
      obtain ⟨place, tells, isPlace⟩ := (Signs.places_resolve _).2 _ signs
      simp [read, ofTokens_eq, Traced.diagnostics_bind, signs, tells, isPlace, Progress.kind]
  | stopsAtProducts read signs products =>
      have kind := StopsAtProducts.kind ⟨_, signs, products⟩
      obtain ⟨place, tells, isPlace⟩ := (Products.places_resolve _).2 _ products kind
      have silent := (Signs.places_resolve _).1 _ signs
      simp [read, ofTokens_eq, Traced.diagnostics_bind, signs, products, silent, tells, isPlace, Progress.kind]
  | getsToSums read signs products =>
      have silent := (Signs.places_resolve _).1 _ signs
      have silent' := (Products.places_resolve _).1 _ products
      simp [read, ofTokens_eq, Traced.diagnostics_bind, signs, products, silent, silent', Progress.kind]

theorem diagnostics_ofText (text : String) :
    (ofText text).diagnostics = .evaluating text :: ((unannounced text).diagnostics ++
      match (ofText text).outcome with
      | .ok evaluation => [.evaluated text evaluation.value]
      | .error _ => []) := by
  rw [ofText]
  simp only [Traced.diagnostics_bind, Traced.outcome_bind, Traced.diagnostics_tell, Traced.outcome_tell,
    Traced.diagnostics_note, Traced.outcome_note, Traced.diagnostics_closing, Traced.outcome_closing]
  cases (unannounced text).outcome <;> simp [Except.bind]

/-- What an evaluation tells those who follow it, in order. -/
structure TellsInOrder (text : String) : Prop where
  messages : (Step.start text).message = "Start parse_and_compute: " ++ Text.Quoted.quote text ∧
    (Diagnostic.evaluating text).message = "Evaluating " ++ Text.Quoted.quote text ∧
    ∀ value, (Diagnostic.evaluated text value).message =
      "Evaluated " ++ Text.Quoted.quote text ++ " to " ++ Numeral.write value
  /-- First the announcement, then the skipped characters up to where scanning stops, then the stages up to the one that
  stops, with the rounds of factorials behind the first of them, and the end in any case. -/
  records : ∃ skipped stages,
    (ofText text).records = .step (.start text) :: (skipped.map Record.skip ++ stages ++ [.finish]) ∧
      match (Scan.tokens text).outcome with
      | .error fault => stages = [] ∧ ∃ before after literal, text.toList = before ++ after ∧
          Scan.Halts [] before after literal ∧ fault = .unreadableLiteral (String.ofList literal) ∧
          skipped = Scan.skipped before
      | .ok tokens => skipped = Scan.skipped text.toList ∧ ∃ rounds, (∀ round ∈ rounds, round.isRound = true) ∧
          stages = .stage "compute" tokens :: .stage "resolve_unary" tokens :: (rounds ++ laterStages tokens)
  oneFinish : (ofText text).records.countP Record.isFinish = 1
  noStage : (ofText text).records.countP Record.isStage = 0 ↔
    ∃ fault, (ofText text).outcome = .error fault ∧ fault.kind = .unreadableNumber
  twoStages : (ofText text).records.countP Record.isStage = 2 ↔
    ∃ tokens fault, (Scan.tokens text).outcome = .ok tokens ∧ StopsAtSigns tokens fault
  threeStages : (ofText text).records.countP Record.isStage = 3 ↔
    ∃ tokens fault, (Scan.tokens text).outcome = .ok tokens ∧ StopsAtProducts tokens fault
  fourStages : (ofText text).records.countP Record.isStage = 4 ↔
    (∃ evaluation, (ofText text).outcome = .ok evaluation) ∨
      ∃ fault, (ofText text).outcome = .error fault ∧ fault.kind = .unknown
  diagnostics : ∃ places : List Diagnostic, (ofText text).diagnostics = .evaluating text :: (places ++
      match (ofText text).outcome with
      | .ok evaluation => [.evaluated text evaluation.value]
      | .error _ => []) ∧
    ((∃ fault, (ofText text).outcome = .error fault ∧ fault.kind = .misplacedOperator) →
      ∃ place, places = [place] ∧ place.isPlace = true) ∧
    ((¬∃ fault, (ofText text).outcome = .error fault ∧ fault.kind = .misplacedOperator) → places = [])

/-- What is neither announced nor skipped occurs among the stages or at the end. -/
theorem countP_ofText {p : Record → Bool} (text : String) (announced : p (.step (.start text)) = false)
    (skipped : ∀ c, p (.skip c) = false) :
    (ofText text).records.countP p = (stages text).countP p + [Record.finish].countP p := by
  have scanned : (Scan.tokens text).records.countP p = 0 := by
    obtain ⟨chars, heard⟩ := Scan.records_skipped text
    rw [heard, List.countP_map, List.countP_eq_zero]
    simp [skipped]
  rw [records_ofText, List.countP_cons_of_neg (by simp [announced]), List.countP_append, List.countP_append, scanned,
    Nat.zero_add]

theorem countP_isStage (text : String) : (ofText text).records.countP Record.isStage = (progress text).stages := by
  rw [countP_ofText text rfl fun _ => rfl, countP_stages]
  rfl

theorem stages_of_ok {text : String} {tokens : List Token} (read : (Scan.tokens text).outcome = .ok tokens) :
    ∃ rounds, (∀ round ∈ rounds, round.isRound = true) ∧
      stages text = .stage "compute" tokens :: .stage "resolve_unary" tokens :: (rounds ++ laterStages tokens) := by
  refine ⟨(Signs.scan 0 none tokens).records, Signs.isRound_scan, ?_⟩
  simp only [stages, read, records_ofTokens]

theorem isStage_laterStages (tokens : List Token) : ∀ record ∈ laterStages tokens, record.isStage = true := by
  intro record member
  unfold laterStages at member
  split at member
  · cases member
  · split at member <;> simp at member
    · exact member ▸ rfl
    · obtain rfl | rfl := member <;> rfl

theorem not_isFinish_stages (text : String) : ∀ record ∈ stages text, record.isFinish = false := by
  intro record member
  cases read : (Scan.tokens text).outcome with
  | error =>
      simp only [stages, read] at member
      cases member
  | ok tokens =>
      obtain ⟨rounds, areRounds, told⟩ := stages_of_ok read
      simp only [told, List.mem_cons, List.mem_append] at member
      obtain rfl | rfl | round | later := member
      · rfl
      · rfl
      · obtain ⟨n, round, rfl⟩ := Record.eq_of_isRound (areRounds record round)
        rfl
      · have isStage := isStage_laterStages tokens record later
        cases record <;> first | rfl | cases isStage

theorem countP_isFinish (text : String) : (ofText text).records.countP Record.isFinish = 1 := by
  have staged : (stages text).countP Record.isFinish = 0 := by
    rw [List.countP_eq_zero]
    intro record member
    simp [not_isFinish_stages text record member]
  rw [countP_ofText text rfl fun _ => rfl, staged]
  rfl

theorem reports_in_order (text : String) : TellsInOrder text := by
  have way := course text
  have counts (n : Progress) : (ofText text).records.countP Record.isStage = n.stages ↔ progress text = n := by
    rw [countP_isStage]
    exact Progress.stages_injective.eq_iff
  exact {
    messages := ⟨rfl, rfl, fun _ => rfl⟩
    records := by
      cases read : (Scan.tokens text).outcome with
      | error fault =>
          obtain ⟨before, after, literal, splits, halts, rfl, heard⟩ :=
            Scan.records_of_error (by simp) ((Scan.outcome_tokens text).symm.trans read)
          refine ⟨Scan.skipped before, [], ?_, rfl, before, after, literal, splits, halts, rfl, rfl⟩
          rw [records_ofText, Scan.tokens, heard]
          simp [stages, read]
      | ok tokens =>
          obtain ⟨rounds, areRounds, told⟩ := stages_of_ok read
          refine ⟨Scan.skipped text.toList, stages text, ?_, rfl, rounds, areRounds, told⟩
          rw [records_ofText, Scan.tokens, Scan.records_quiet ((Scan.outcome_tokens text).symm.trans read)]
    oneFinish := countP_isFinish text
    noStage := (counts .scan).trans (Progress.kind_eq_unreadable.symm.trans (way.kind_iff (by decide)))
    twoStages := (counts .signs).trans way.signs_iff
    threeStages := (counts .products).trans way.products_iff
    fourStages := (counts .sums).trans way.sums_iff
    diagnostics := by
      refine ⟨(unannounced text).diagnostics, diagnostics_ofText text, ?_⟩
      rw [← way.kind_iff (by decide)]
      exact places_unannounced text }

end Evaluation

end Reckoner
