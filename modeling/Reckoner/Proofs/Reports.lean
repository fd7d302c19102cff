import Reckoner.Traced

/-! # Outcomes and reports of traced computations

The outcome of a composed computation depends on the outcomes of its parts alone. Its reports are those of its parts in
order, up to the first fault, however the parts are grouped.
-/

namespace Except

variable {ε α β : Type}

theorem map_eq_ok {f : α → β} {x : Except ε α} {b : β} : x.map f = .ok b ↔ ∃ a, x = .ok a ∧ f a = b := by
  cases x <;> simp [Except.map]

theorem bind_eq_ok {x : Except ε α} {f : α → Except ε β} {b : β} :
    x.bind f = .ok b ↔ ∃ a, x = .ok a ∧ f a = .ok b := by
  cases x <;> simp [Except.bind]

theorem bind_eq_error {x : Except ε α} {f : α → Except ε β} {e : ε} :
    x.bind f = .error e ↔ x = .error e ∨ ∃ a, x = .ok a ∧ f a = .error e := by
  cases x <;> simp [Except.bind]

theorem map_eq_error {f : α → β} {x : Except ε α} {e : ε} : x.map f = .error e ↔ x = .error e := by
  cases x <;> simp [Except.map]

theorem mapError_map {ε' : Type} (f : α → β) (g : ε → ε') (x : Except ε α) :
    (x.map f).mapError g = (x.mapError g).map f := by
  cases x <;> rfl

theorem map_bind {γ : Type} (g : β → γ) (f : α → Except ε β) (x : Except ε α) :
    (x.bind f).map g = x.bind fun a => (f a).map g := by
  cases x <;> rfl

theorem map_eq_bind (f : α → β) (x : Except ε α) : x.map f = x.bind fun a => .ok (f a) := by
  cases x <;> rfl

/-- What went wrong, if anything did. -/
def error? : Except ε α → Option ε
  | ok _ => none
  | error e => some e

@[simp] theorem error?_ok (a : α) : error? (ok a : Except ε α) = none := rfl

@[simp] theorem error?_error (e : ε) : error? (error e : Except ε α) = some e := rfl

@[simp] theorem error?_map (f : α → β) (x : Except ε α) : (x.map f).error? = x.error? := by
  cases x <;> rfl

/-- A list of steps stops at the first that fails. -/
theorem error?_mapM (f : α → Except ε β) (list : List α) :
    (list.mapM f).error? = list.findSome? fun a => (f a).error? := by
  induction list with
  | nil => rfl
  | cons a rest ih =>
      rw [List.mapM_cons, List.findSome?_cons]
      cases f a with
      | error e => rfl
      | ok b =>
          rw [error?_ok, ← ih]
          cases rest.mapM f <;> rfl

theorem error?_eq_some {x : Except ε α} {e : ε} : x.error? = some e ↔ x = error e := by
  cases x <;> simp

theorem error?_eq_none {x : Except ε α} : x.error? = none ↔ ∃ a, x = ok a := by
  cases x <;> simp

end Except

namespace Reckoner.Traced

variable {α β γ : Type}

protected theorem id_map (x : Traced α) : id <$> x = x := by
  obtain ⟨events, outcome⟩ := x
  cases outcome <;> rfl

protected theorem bind_pure_comp (f : α → β) (x : Traced α) : (x >>= fun a => pure (f a)) = f <$> x := by
  obtain ⟨events, outcome⟩ := x
  cases outcome with
  | error fault => rfl
  | ok a => exact congrArg (Traced.mk · (.ok (f a))) (List.append_nil events)

protected theorem bind_assoc (x : Traced α) (f : α → Traced β) (g : β → Traced γ) :
    x >>= f >>= g = x >>= fun a => f a >>= g := by
  obtain ⟨events, outcome⟩ := x
  cases outcome with
  | error fault => rfl
  | ok a =>
      change Traced.bind ⟨events ++ (f a).events, (f a).outcome⟩ g =
        ⟨events ++ ((f a).bind g).events, ((f a).bind g).outcome⟩
      unfold Traced.bind
      cases (f a).outcome with
      | error fault => rfl
      | ok b => simp only [List.append_assoc]

instance : LawfulMonad Traced :=
  .mk' Traced Traced.id_map (fun _ _ => rfl) Traced.bind_assoc (fun _ _ => rfl) (fun _ _ => rfl) (fun _ _ => rfl)
    Traced.bind_pure_comp

@[simp] theorem outcome_pure (a : α) : (pure a : Traced α).outcome = .ok a := rfl

@[simp] theorem outcome_map (f : α → β) (x : Traced α) : (f <$> x).outcome = x.outcome.map f := rfl

@[simp] theorem outcome_bind (x : Traced α) (f : α → Traced β) :
    (x >>= f).outcome = x.outcome.bind fun a => (f a).outcome := by
  change (x.bind f).outcome = _
  unfold Traced.bind
  cases x.outcome <;> rfl

@[simp] theorem outcome_tell (told : List Record) : (tell told).outcome = .ok () := rfl

@[simp] theorem outcome_note (diagnostic : Diagnostic) : (note diagnostic).outcome = .ok () := rfl

@[simp] theorem outcome_ofExcept (outcome : Except Fault α) : (ofExcept outcome).outcome = outcome := rfl

@[simp] theorem outcome_refuse (fault : Fault) : (refuse fault : Traced α).outcome = .error fault := rfl

@[simp] theorem outcome_stop (diagnostic : Diagnostic) (fault : Fault) :
    (stop diagnostic fault : Traced α).outcome = .error fault := rfl

@[simp] theorem outcome_closing (record : Record) (x : Traced α) : (x.closing record).outcome = x.outcome := rfl

theorem records_bind (x : Traced α) (f : α → Traced β) :
    (x >>= f).records = x.records ++ match x.outcome with
      | .ok a => (f a).records
      | .error _ => [] := by
  change (x.bind f).records = _
  unfold Traced.bind
  cases x.outcome <;> simp [records]

@[simp] theorem records_pure (a : α) : (pure a : Traced α).records = [] := rfl

@[simp] theorem records_map (f : α → β) (x : Traced α) : (f <$> x).records = x.records := rfl

@[simp] theorem records_tell (told : List Record) : (tell told).records = told := by
  simp [tell, records, List.filterMap_map, Function.comp_def, Event.record?]

@[simp] theorem records_note (diagnostic : Diagnostic) : (note diagnostic).records = [] := rfl

@[simp] theorem records_ofExcept (outcome : Except Fault α) : (ofExcept outcome).records = [] := rfl

@[simp] theorem records_refuse (fault : Fault) : (refuse fault : Traced α).records = [] := rfl

@[simp] theorem records_stop (diagnostic : Diagnostic) (fault : Fault) :
    (stop diagnostic fault : Traced α).records = [] := rfl

@[simp] theorem records_closing (record : Record) (x : Traced α) :
    (x.closing record).records = x.records ++ [record] := by
  simp [closing, records, List.filterMap_append, Event.record?]

theorem diagnostics_bind (x : Traced α) (f : α → Traced β) :
    (x >>= f).diagnostics = x.diagnostics ++ match x.outcome with
      | .ok a => (f a).diagnostics
      | .error _ => [] := by
  change (x.bind f).diagnostics = _
  unfold Traced.bind
  cases x.outcome <;> simp [diagnostics]

@[simp] theorem diagnostics_note (diagnostic : Diagnostic) : (note diagnostic).diagnostics = [diagnostic] := rfl

@[simp] theorem diagnostics_ofExcept (outcome : Except Fault α) : (ofExcept outcome).diagnostics = [] := rfl

@[simp] theorem diagnostics_closing (record : Record) (x : Traced α) :
    (x.closing record).diagnostics = x.diagnostics := by
  simp [closing, diagnostics, List.filterMap_append, Event.diagnostic?]

@[simp] theorem diagnostics_pure (a : α) : (pure a : Traced α).diagnostics = [] := rfl

@[simp] theorem diagnostics_map (f : α → β) (x : Traced α) : (f <$> x).diagnostics = x.diagnostics := rfl

theorem diagnostics_bind_ok {x : Traced α} {a : α} (h : x.outcome = .ok a) (f : α → Traced β) :
    (x >>= f).diagnostics = x.diagnostics ++ (f a).diagnostics := by
  change (x.bind f).diagnostics = _
  simp [Traced.bind, h, diagnostics]

theorem diagnostics_bind_error {x : Traced α} {fault : Fault} (h : x.outcome = .error fault) (f : α → Traced β) :
    (x >>= f).diagnostics = x.diagnostics := by
  change (x.bind f).diagnostics = _
  simp [Traced.bind, h, diagnostics]

@[simp] theorem diagnostics_tell (told : List Record) : (tell told).diagnostics = [] := by
  simp [tell, diagnostics, List.filterMap_map, Function.comp_def, Event.diagnostic?]

@[simp] theorem diagnostics_refuse (fault : Fault) : (refuse fault : Traced α).diagnostics = [] := rfl

@[simp] theorem diagnostics_stop (diagnostic : Diagnostic) (fault : Fault) :
    (stop diagnostic fault : Traced α).diagnostics = [diagnostic] := rfl

end Reckoner.Traced
