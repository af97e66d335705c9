import Mathlib.Data.List.Basic

/-!
# Why a computation fails

What a computation that may fail fails with, and what a loop of such steps fails with
when the failure of a step does not depend on the state it is taken from.
-/

namespace Except

variable {α β ε ε' σ : Type}

/-- What a computation fails with. -/
def failure : Except ε α → Option ε
  | .error reason => some reason
  | .ok _ => none

/-- A computation fails with a reason exactly if it is that error. -/
theorem failure_eq_some_iff {outcome : Except ε α} {reason : ε} :
    outcome.failure = some reason ↔ outcome = .error reason := by
  cases outcome with
  | error other => exact ⟨fun same => congrArg _ (Option.some.inj same), fun | rfl => rfl⟩
  | ok value => exact ⟨nofun, nofun⟩

/-- A computation does not fail exactly if it has a value. -/
theorem failure_eq_none_iff {outcome : Except ε α} :
    outcome.failure = none ↔ ∃ value, outcome = .ok value := by
  cases outcome with
  | error reason => exact ⟨nofun, nofun⟩
  | ok value => exact ⟨fun _ => ⟨value, rfl⟩, fun _ => rfl⟩

/-- A mapped computation has a value that comes from one of its source. -/
theorem map_eq_ok_iff {f : α → β} {outcome : Except ε α} {value : β} :
    outcome.map f = .ok value ↔ ∃ source, outcome = .ok source ∧ f source = value := by
  cases outcome with
  | error reason => exact ⟨nofun, nofun⟩
  | ok source =>
      exact ⟨fun same => ⟨source, rfl, Except.ok.inj same⟩, fun ⟨_, own, same⟩ =>
        congrArg _ ((congrArg f (Except.ok.inj own)).trans same)⟩

/-- Mapping the value does not change why a computation fails. -/
@[simp] theorem failure_map (f : α → β) (outcome : Except ε α) :
    (outcome.map f).failure = outcome.failure := by
  cases outcome <;> rfl

/-- Mapping the error maps the reason. -/
@[simp] theorem failure_mapError (f : ε → ε') (outcome : Except ε α) :
    (outcome.mapError f).failure = outcome.failure.map f := by
  cases outcome <;> rfl

/-- A mapped computation fails as its source does. -/
theorem map_eq_error_iff {f : α → β} {outcome : Except ε α} {reason : ε} :
    outcome.map f = .error reason ↔ outcome = .error reason := by
  rw [← failure_eq_some_iff, failure_map, failure_eq_some_iff]

/-- Only what was found is a value. -/
theorem elim_eq_ok_iff {found : Option α} {reason : ε} {value : α} :
    found.elim (.error reason) (.ok : α → Except ε α) = .ok value ↔ found = some value := by
  cases found with
  | none => exact iff_of_false (fun same => by cases same) fun same => by cases same
  | some other => rw [Option.elim_some, ok.injEq, Option.some.injEq]

/-- If nothing was found, the own reason is the error. -/
theorem elim_eq_error_iff {found : Option α} {own reason : ε} :
    found.elim (.error own) (.ok : α → Except ε α) = .error reason ↔
      found = none ∧ reason = own := by
  cases found with
  | none => rw [Option.elim_none, error.injEq, eq_comm, and_iff_right rfl]
  | some other => exact iff_of_false (fun same => by cases same) fun both => by cases both.1

/-- A sequence has a value if both of its parts have. -/
theorem bind_eq_ok_iff {f : α → Except ε β} {outcome : Except ε α} {value : β} :
    outcome.bind f = .ok value ↔ ∃ source, outcome = .ok source ∧ f source = .ok value := by
  cases outcome with
  | error reason =>
      refine iff_of_false (fun same => by cases same) fun both => ?_
      obtain ⟨source, same, -⟩ := both
      cases same
  | ok source =>
      constructor
      · exact fun same => ⟨source, rfl, same⟩
      · intro both
        obtain ⟨own, same, value⟩ := both
        cases same
        exact value

/-- A sequence fails in its first part or in its second. -/
theorem bind_eq_error_iff {f : α → Except ε β} {outcome : Except ε α} {reason : ε} :
    outcome.bind f = .error reason ↔
      outcome = .error reason ∨ ∃ source, outcome = .ok source ∧ f source = .error reason := by
  cases outcome with
  | error other =>
      refine Iff.trans ?_ (or_iff_left fun both => ?_).symm
      · rw [Except.bind, Except.error.injEq, Except.error.injEq]
      · obtain ⟨source, same, -⟩ := both
        cases same
  | ok source =>
      refine Iff.trans ?_ (or_iff_right fun same => by cases same).symm
      constructor
      · exact fun same => ⟨source, rfl, same⟩
      · intro both
        obtain ⟨own, same, reason⟩ := both
        cases same
        exact reason

/-- **A loop fails** with the first failure of its steps. -/
theorem failure_foldlM {step : σ → β → Except ε σ} {reason : β → Option ε}
    (fails : ∀ state item, (step state item).failure = reason item) (items : List β) (state : σ) :
    (items.foldlM step state).failure = items.findSome? reason := by
  induction items generalizing state with
  | nil => rfl
  | cons item items ih =>
      rw [List.foldlM_cons, List.findSome?_cons, ← fails state item]
      cases step state item with
      | error first => rfl
      | ok next => exact ih next

/-- A mark that a loop leaves is there at its end if one of its items leaves it. -/
theorem mark_foldlM {step : σ → β → Except ε σ} (mark : σ → Bool) {leaves : β → Bool}
    (effect : ∀ {state item next}, step state item = .ok next →
      mark next = (mark state || leaves item))
    {items : List β} {state last : σ} (runs : items.foldlM step state = .ok last) :
    mark last = (mark state || items.any leaves) := by
  induction items generalizing state with
  | nil =>
      cases runs
      exact (Bool.or_false _).symm
  | cons item items ih =>
      rw [List.foldlM_cons] at runs
      cases taken : step state item with
      | error first =>
          rw [taken] at runs
          cases runs
      | ok next =>
          rw [taken] at runs
          rw [ih runs, effect taken, List.any_cons, Bool.or_assoc]

end Except
