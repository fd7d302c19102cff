import Mathlib.Algebra.BigOperators.Group.List.Basic
import Mathlib.Algebra.GroupWithZero.Nat
import Mathlib.Data.List.TakeWhile
import Reckoner.CommandLine.Request

/-! # Arguments in any order

Options add up: whatever their order and wherever the calculation stands among them, a command line asks for the same. Behind
a separator any text is the calculation.
-/

namespace Reckoner.CommandLine

/-- An option as it is written on the command line. -/
inductive Group where
  /-- A dash and at least one `v`. -/
  | cluster (more : Nat)
  | verbose
  | json
  /-- The backend in an argument of its own. -/
  | logger (backend : Backend)
  /-- The backend attached by a `=`. -/
  | attached (backend : Backend)
  deriving DecidableEq

namespace Group

def arguments : Group → List String
  | cluster more => [String.ofList ('-' :: 'v' :: List.replicate more 'v')]
  | verbose => ["--verbose"]
  | json => ["--json"]
  | logger backend => ["--logger", backend.name]
  | attached backend => ["--logger=" ++ backend.name]

/-- How many times a group asks for more. -/
def verbosity : Group → Nat
  | cluster more => more + 1
  | verbose => 1
  | json | logger _ | attached _ => 0

def isJson : Group → Bool
  | json => true
  | _ => false

def backend? : Group → Option Backend
  | logger backend | attached backend => some backend
  | _ => none

/-- Whether a group selects where the trace goes. -/
def isLogger (group : Group) : Bool :=
  group.backend?.isSome

theorem filterMap_isLogger (groups : List Group) :
    (groups.filter isLogger).filterMap backend? = groups.filterMap backend? := by
  rw [List.filterMap_filter]
  congr 1
  funext group
  cases group <;> rfl

/-- The parts that the arguments of a group play. -/
def words : Group → List Word
  | cluster 0 | verbose => [.switch (.flag .verbose) none]
  | cluster (more + 1) => [.cluster .verbose (List.replicate (more + 1) 'v')]
  | json => [.switch (.flag .json) none]
  | logger backend => [.switch .logger none, .operand backend.name]
  | attached backend => [.switch .logger (some backend.name)]

theorem head?_words (groups : List Group) : (groups.flatMap words).head? ≠ some .separator := by
  cases groups with
  | nil => nofun
  | cons group rest =>
      cases group with
      | cluster more => cases more <;> nofun
      | verbose | json | logger | attached => nofun

/-- What a group adds to a draft. -/
def enter (draft : Draft) : Group → Draft
  | cluster more => { draft with verbosity := draft.verbosity + (more + 1) }
  | verbose => { draft with verbosity := draft.verbosity + 1 }
  | json => { draft with json := true }
  | logger backend | attached backend => { draft with backend := some backend }

end Group

/-- What groups of options ask of a calculation. -/
def Request.ofGroups (calculation : String) (groups : List Group) : Request where
  calculation
  verbosity := (groups.map Group.verbosity).sum
  json := groups.any Group.isJson
  backend := (groups.filterMap Group.backend?).getLastD .console

namespace Switch

/-- A dash and two or more `v` spell no option. -/
theorem ofSpelling?_cluster (more : Nat) :
    ofSpelling? (String.ofList ('-' :: 'v' :: List.replicate (more + 1) 'v')) = none := by
  have long : ∀ switch ∈ all, switch.long.toList[1]? = some '-' := by decide
  have short : ∀ switch ∈ all, ∀ text, switch.short? = some text → text.toList.length = 2 := by
    simp [all, Flag.all, short?, letter?, Flag.letter?]
  simp only [ofSpelling?, List.find?_eq_none, Bool.or_eq_true, beq_iff_eq, not_or]
  intro switch member
  constructor
  · intro same
    have dash := long switch member
    rw [same, String.toList_ofList] at dash
    cases dash
  · intro same
    have two := short switch member _ same
    rw [String.toList_ofList] at two
    cases two

end Switch

variable {convention : Convention}

namespace Word

theorem ofArgument_operand {text : String} (undashed : text.toList.head? ≠ some '-') :
    ofArgument convention text = .ok (operand text) := by
  unfold ofArgument
  split
  · rfl
  · rename_i rest dashed
    simp [dashed] at undashed
  · rfl

/-- A dash and two or more `v` are a cluster. -/
theorem ofArgument_cluster (more : Nat) :
    ofArgument convention (String.ofList ('-' :: 'v' :: List.replicate (more + 1) 'v')) =
      .ok (cluster .verbose (List.replicate (more + 1) 'v')) := by
  have whole : ('-' :: 'v' :: List.replicate (more + 1) 'v').takeWhile (· ≠ '=') =
      '-' :: 'v' :: List.replicate (more + 1) 'v' := by
    rw [List.takeWhile_eq_self_iff]
    simp
  unfold ofArgument
  simp only [String.toList_ofList, whole, Switch.ofSpelling?_cluster]
  simp [ofShort, Flag.ofLetter?, Flag.all, Flag.letter?]

theorem ofArguments_cons {text : String} (other : text ≠ separatorText) {word : Word}
    (is : ofArgument convention text = .ok word) (rest : List String) :
    ofArguments convention (text :: rest) = (ofArguments convention rest).map (word :: ·) := by
  rw [ofArguments, if_neg other, is]
  cases ofArguments convention rest <;> rfl

theorem ofArguments_group (group : Group) (rest : List String) :
    ofArguments convention (group.arguments ++ rest) = (ofArguments convention rest).map (group.words ++ ·) := by
  cases group with
  | cluster more =>
      cases more with
      | zero => exact ofArguments_cons (by decide) (by cases convention <;> decide +kernel) rest
      | succ more =>
          refine ofArguments_cons ?_ (ofArgument_cluster more) rest
          intro same
          have letters := congrArg String.toList same
          rw [String.toList_ofList] at letters
          cases letters
  | verbose | json => exact ofArguments_cons (by decide) (by cases convention <;> decide +kernel) rest
  | logger backend =>
      have named : ofArguments convention (backend.name :: rest) =
          (ofArguments convention rest).map (.operand backend.name :: ·) := by
        cases backend <;> exact ofArguments_cons (by decide) (by cases convention <;> decide +kernel) rest
      have option : ofArguments convention ("--logger" :: backend.name :: rest) =
          (ofArguments convention (backend.name :: rest)).map (.switch .logger none :: ·) :=
        ofArguments_cons (by decide) (by cases convention <;> decide +kernel) _
      refine Eq.trans option ?_
      rw [named]
      cases ofArguments convention rest <;> rfl
  | attached backend => cases backend <;> exact ofArguments_cons (by decide) (by cases convention <;> decide +kernel) rest

theorem ofArguments_groups (groups : List Group) (rest : List String) :
    ofArguments convention (groups.flatMap Group.arguments ++ rest) =
      (ofArguments convention rest).map (groups.flatMap Group.words ++ ·) := by
  induction groups with
  | nil => cases h : ofArguments convention rest <;> simp [h, Except.map]
  | cons group groups ih =>
      rw [List.flatMap_cons, List.append_assoc, ofArguments_group, ih, List.flatMap_cons]
      cases ofArguments convention rest <;> simp [Except.map]

end Word

namespace Draft

variable (draft : Draft)

theorem allFlags_replicate (more : Nat) :
    allFlags .verbose (List.replicate (more + 1) 'v') = .ok (List.replicate (more + 2) .verbose) := by
  have letter : Flag.ofLetter? 'v' = some .verbose := by decide
  induction more with
  | zero => rfl
  | succ more ih =>
      rw [List.replicate_succ, allFlags]
      simp only [letter]
      rw [if_neg (by simp [List.replicate_succ]), ih]
      rfl

theorem leadingFlags_replicate (more : Nat) :
    leadingFlags .verbose (List.replicate more 'v') = .ok (List.replicate (more + 1) .verbose, []) := by
  have letter : Flag.ofLetter? 'v' = some .verbose := by decide
  induction more with
  | zero => rfl
  | succ more ih =>
      rw [List.replicate_succ, leadingFlags]
      · simp only [letter, ih]
        rfl
      · decide
      · decide

theorem flags_replicate (more : Nat) : flags convention .verbose (List.replicate (more + 1) 'v') =
    .ok (List.replicate (more + 2) .verbose, []) := by
  cases convention with
  | lenient =>
      rw [flags, allFlags_replicate]
      rfl
  | strict => exact leadingFlags_replicate (more + 1)

theorem applyAll_replicate (count : Nat) :
    draft.applyAll (List.replicate count .verbose) = .ok { draft with verbosity := draft.verbosity + count } := by
  induction count generalizing draft with
  | zero => rfl
  | succ count ih =>
      have first : draft.apply .verbose = .ok { draft with verbosity := draft.verbosity + 1 } := rfl
      rw [List.replicate_succ, applyAll, first]
      refine Eq.trans (ih _) ?_
      rw [Nat.add_assoc, Nat.add_comm 1 count]

theorem select_name (backend : Backend) :
    draft.select convention backend.name = .ok { draft with backend := some backend } := by
  have named : ¬(convention = .lenient ∧ backend.name = Word.separatorText) := by
    rintro ⟨-, same⟩
    cases backend <;> exact absurd same (by decide)
  rw [select, if_neg named]
  cases backend <;> rfl

theorem read_group (group : Group) (rest : List Word) :
    draft.read convention (group.words ++ rest) = (group.enter draft).read convention rest := by
  cases group with
  | cluster more =>
      cases more with
      | zero => rfl
      | succ more =>
          change draft.read convention (.cluster .verbose _ :: rest) = _
          rw [read, flags_replicate]
          change (draft.applyAll _ >>= fun next => (List.foldl leave next []).read convention rest) = _
          rw [applyAll_replicate]
          rfl
  | verbose | json => rfl
  | logger backend =>
      change draft.read convention (.switch .logger none :: .operand backend.name :: rest) = _
      rw [read, select_name]
      rfl
  | attached backend =>
      change draft.read convention (.switch .logger (some backend.name) :: rest) = _
      rw [read, select_name]
      rfl

theorem read_groups (groups : List Group) (rest : List Word) :
    draft.read convention (groups.flatMap Group.words ++ rest) = (groups.foldl Group.enter draft).read convention rest := by
  induction groups generalizing draft with
  | nil => rfl
  | cons group groups ih => rw [List.flatMap_cons, List.append_assoc, read_group, ih, List.foldl_cons]

/-- The calculation is met. -/
def meet (calculation : String) : Draft :=
  { draft with calculation := some calculation }

theorem enter_meet (calculation : String) (group : Group) :
    group.enter (draft.meet calculation) = (group.enter draft).meet calculation := by
  cases group <;> rfl

theorem foldl_enter_meet (calculation : String) (groups : List Group) :
    groups.foldl Group.enter (draft.meet calculation) = (groups.foldl Group.enter draft).meet calculation := by
  induction groups generalizing draft with
  | nil => rfl
  | cons group groups ih => rw [List.foldl_cons, enter_meet, ih, List.foldl_cons]

/-- Groups of options leave the calculation to others. -/
theorem foldl_enter (calculation : Option String) (verbosity : Nat) (json : Bool) (backend : Backend)
    (surplus : List String) (groups : List Group) :
    groups.foldl Group.enter ⟨calculation, verbosity, json, some backend, surplus⟩ =
      ⟨calculation, verbosity + (groups.map Group.verbosity).sum, json || groups.any Group.isJson,
        some ((groups.filterMap Group.backend?).getLastD backend), surplus⟩ := by
  induction groups generalizing verbosity json backend with
  | nil => simp
  | cons group groups ih =>
      cases group <;>
        simp only [List.foldl_cons, Group.enter, ih, List.map_cons, List.sum_cons, List.any_cons, List.filterMap_cons,
          Group.verbosity, Group.isJson, Group.backend?, List.getLastD_cons] <;>
        simp [Nat.add_assoc]

theorem waits_groups (groups : List Group) : (groups.foldl Group.enter {}).calculation = none := by
  rw [foldl_enter]

theorem request_groups (calculation : String) (groups : List Group) :
    ((groups.foldl Group.enter {}).meet calculation).request = .ok (.ofGroups calculation groups) := by
  rw [foldl_enter]
  simp [meet, request, Request.ofGroups]

variable {draft}

/-- A calculation without a separator after it is met. -/
theorem read_operand (waits : draft.calculation = none) {rest : List Word} (noSeparator : rest.head? ≠ some .separator)
    (calculation : String) :
    draft.read convention (.operand calculation :: rest) = (draft.meet calculation).read convention rest := by
  cases rest with
  | nil => simp [read, waits, meet]
  | cons word rest =>
      have other : word ≠ .separator := fun same => noSeparator (congrArg some same)
      rw [read, waits]
      · rfl
      · rintro rest' same
        exact other (List.cons.inj same).1

end Draft

namespace Request

theorem ofArguments_of_read {arguments : List String} {words : List Word} {draft : Draft}
    (are : Word.ofArguments convention arguments = .ok words) (reads : Draft.read convention {} words = .ok draft) :
    ofArguments convention arguments = draft.request := by
  rw [ofArguments, are]
  change (Draft.read convention {} words >>= Draft.request) = _
  rw [reads]
  rfl

theorem ofArguments_separated (calculation : String) (groups : List Group) :
    ofArguments convention (groups.flatMap Group.arguments ++ [Word.separatorText, calculation]) =
      .ok (ofGroups calculation groups) := by
  have words : Word.ofArguments convention (groups.flatMap Group.arguments ++ [Word.separatorText, calculation]) =
      .ok (groups.flatMap Group.words ++ [.separator, .operand calculation]) :=
    Word.ofArguments_groups groups _
  have reads : Draft.read convention {} (groups.flatMap Group.words ++ [.separator, .operand calculation]) =
      .ok ((groups.foldl Group.enter {}).meet calculation) := by
    rw [Draft.read_groups, Draft.read, Draft.waits_groups]
    rfl
  exact (ofArguments_of_read words reads).trans (Draft.request_groups calculation groups)

theorem ofArguments_between {calculation : String} (undashed : calculation.toList.head? ≠ some '-')
    (before after : List Group) :
    ofArguments convention (before.flatMap Group.arguments ++ calculation :: after.flatMap Group.arguments) =
      .ok (ofGroups calculation (before ++ after)) := by
  have other : calculation ≠ Word.separatorText := by
    rintro rfl
    exact undashed (by decide)
  have trailing : Word.ofArguments convention (after.flatMap Group.arguments) = .ok (after.flatMap Group.words) := by
    have whole := @Word.ofArguments_groups convention after []
    simpa [Word.ofArguments, Except.map] using whole
  have words : Word.ofArguments convention (before.flatMap Group.arguments ++ calculation :: after.flatMap Group.arguments) =
      .ok (before.flatMap Group.words ++ .operand calculation :: after.flatMap Group.words) := by
    rw [Word.ofArguments_groups, Word.ofArguments_cons other (Word.ofArgument_operand undashed), trailing]
    rfl
  have reads : Draft.read convention {} (before.flatMap Group.words ++ .operand calculation :: after.flatMap Group.words) =
      .ok (((before ++ after).foldl Group.enter {}).meet calculation) := by
    have later := @Draft.read_groups convention ((before.foldl Group.enter {}).meet calculation) after []
    rw [List.append_nil, Draft.foldl_enter_meet, ← List.foldl_append] at later
    rw [Draft.read_groups, Draft.read_operand (Draft.waits_groups before) (Group.head?_words after), later]
    rfl
  exact (ofArguments_of_read words reads).trans (Draft.request_groups calculation (before ++ after))

theorem ofGroups_perm (calculation : String) {groups reordered : List Group} (perm : groups.Perm reordered)
    (loggers : groups.filter Group.isLogger = reordered.filter Group.isLogger) :
    ofGroups calculation reordered = ofGroups calculation groups := by
  have backends : reordered.filterMap Group.backend? = groups.filterMap Group.backend? := by
    rw [← Group.filterMap_isLogger, ← loggers, Group.filterMap_isLogger]
  have verbosity : (reordered.map Group.verbosity).sum = (groups.map Group.verbosity).sum :=
    (perm.map Group.verbosity).sum_eq.symm
  have json : reordered.any Group.isJson = groups.any Group.isJson := perm.any_eq.symm
  rw [ofGroups, ofGroups, backends, verbosity, json]

/-- Groups of options in any order, and a calculation behind a separator, ask for that calculation, for as much of the trace
as all groups together, and for the last backend. A calculation that begins with no dash may stand anywhere among them. -/
theorem any_order (convention : Convention) (calculation : String) (groups : List Group) :
    ofArguments convention (groups.flatMap Group.arguments ++ ["--", calculation]) = .ok (ofGroups calculation groups) ∧
      ∀ reordered, groups.Perm reordered → groups.filter Group.isLogger = reordered.filter Group.isLogger →
        ofArguments convention (reordered.flatMap Group.arguments ++ ["--", calculation]) = .ok (ofGroups calculation groups) ∧
        (calculation.toList.head? ≠ some '-' → ∀ before after, reordered = before ++ after →
          ofArguments convention (before.flatMap Group.arguments ++ calculation :: after.flatMap Group.arguments) =
            .ok (ofGroups calculation groups)) := by
  refine ⟨ofArguments_separated calculation groups, ?_⟩
  intro reordered perm loggers
  have same := ofGroups_perm calculation perm loggers
  refine ⟨same ▸ ofArguments_separated calculation reordered, ?_⟩
  rintro undashed before after rfl
  rw [ofArguments_between undashed, same]

/-- The selection that comes last counts, whatever else is moved around it. -/
theorem last_selection :
    ofArguments .strict ["--logger", "null", "-vv", "--logger=logging", "--json", "--", "3!"] =
        .ok ⟨"3!", 2, true, .logging⟩ ∧
      ofArguments .strict ["--json", "--logger", "null", "3!", "--logger=logging", "-vv"] =
        .ok ⟨"3!", 2, true, .logging⟩ := by
  obtain ⟨separated, anywhere⟩ := any_order .strict "3!" [.logger .null, .cluster 1, .attached .logging, .json]
  have among := (anywhere [.json, .logger .null, .attached .logging, .cluster 1] (by decide) rfl).2 (by decide)
    [.json, .logger .null] [.attached .logging, .cluster 1] rfl
  have written : [Group.logger .null, .cluster 1, .attached .logging, .json].flatMap Group.arguments =
      ["--logger", "null", "-vv", "--logger=logging", "--json"] := by decide
  have before : [Group.json, .logger .null].flatMap Group.arguments = ["--json", "--logger", "null"] := by decide
  have after : [Group.attached .logging, .cluster 1].flatMap Group.arguments = ["--logger=logging", "-vv"] := by
    decide
  rw [written] at separated
  rw [before, after] at among
  exact ⟨separated, among⟩

end Request

end Reckoner.CommandLine
