import Mathlib.Data.List.Induction
import Mathlib.Data.Set.Basic

/-!
# Transitions

A system takes actions, each of which leads from a state to at most one other;
what is left open is which action comes next.  A run is a sequence of actions
that can all be taken.  What every step preserves, every run preserves, perhaps
only as long as its steps are taken with care, and a system whose steps another
one can follow shows nothing that the other does not.
-/

namespace Transition

variable {σ τ ι κ ω : Type}

/-- Take some actions, one after another. -/
def run (step : σ → ι → Option σ) (state : σ) (actions : List ι) : Option σ :=
  actions.foldlM step state

/-- A state some run leads to. -/
def Reachable (step : σ → ι → Option σ) (start state : σ) : Prop :=
  ∃ actions, run step start actions = some state

/-- Every action of a run is taken with care. -/
def Along (step : σ → ι → Option σ) (care : σ → ι → Prop) : σ → List ι → Prop
  | _, [] => True
  | state, action :: rest =>
      care state action ∧ ∀ next, step state action = some next → Along step care next rest

/-- What a run shows. -/
def trace (step : σ → ι → Option σ) (shows : σ → ι → Option ω) : σ → List ι → List ω
  | _, [] => []
  | state, action :: rest =>
      (shows state action).toList ++
        (step state action).elim [] fun next => trace step shows next rest

/-- What the runs of a system show. -/
def traces (step : σ → ι → Option σ) (shows : σ → ι → Option ω) (start : σ) : Set (List ω) :=
  {seen | ∃ actions state, run step start actions = some state ∧
    trace step shows start actions = seen}

variable {step : σ → ι → Option σ} {state final : σ}

theorem run_cons (state : σ) (action : ι) (rest : List ι) :
    run step state (action :: rest) = (step state action).bind fun next => run step next rest :=
  rfl

/-- The first step of a run. -/
theorem run_cons_eq_some {action : ι} {rest : List ι} :
    run step state (action :: rest) = some final ↔
      ∃ next, step state action = some next ∧ run step next rest = some final := by
  rw [run_cons, Option.bind_eq_some_iff]

/-- One run after another. -/
theorem run_append {middle : σ} {first second : List ι}
    (left : run step state first = some middle) (right : run step middle second = some final) :
    run step state (first ++ second) = some final := by
  induction first generalizing state with
  | nil =>
      cases left
      exact right
  | cons action first ih =>
      obtain ⟨next, taken, left⟩ := run_cons_eq_some.mp left
      rw [List.cons_append, run_cons_eq_some]
      exact ⟨next, taken, ih left⟩

/-- A careful run, step by step. -/
theorem along_cons {care : σ → ι → Prop} {action : ι} {rest : List ι} {next : σ}
    (taken : step state action = some next) :
    Along step care state (action :: rest) ↔ care state action ∧ Along step care next rest := by
  refine and_congr_right fun _ => ⟨fun careful => careful next taken, fun careful other same => ?_⟩
  cases Option.some.inj (taken.symm.trans same)
  exact careful

/-- A run of careful actions. -/
theorem along_of_forall {careful : ι → Prop} {actions : List ι}
    (all : ∀ action ∈ actions, careful action) (state : σ) :
    Along step (fun _ action => careful action) state actions := by
  induction actions generalizing state with
  | nil => trivial
  | cons action rest ih =>
      obtain ⟨first, others⟩ := List.forall_mem_cons.mp all
      exact ⟨first, fun next _ => ih others next⟩

theorem Reachable.refl (start : σ) : Reachable step start start := ⟨[], rfl⟩

/-- The last step of a run. -/
theorem run_concat_eq_some {action : ι} {past : List ι} :
    run step state (past ++ [action]) = some final ↔
      ∃ before, run step state past = some before ∧ step before action = some final := by
  constructor
  · intro ran
    rw [run, List.foldlM_append] at ran
    obtain ⟨before, earlier, last⟩ := Option.bind_eq_some_iff.mp ran
    obtain ⟨next, taken, same⟩ := run_cons_eq_some.mp last
    cases same
    exact ⟨before, earlier, taken⟩
  · intro ⟨before, earlier, taken⟩
    exact run_append earlier (run_cons_eq_some.mpr ⟨final, taken, rfl⟩)

/-- What holds of nothing done, and of what has been done with each step, holds of
what a run has done. -/
theorem history {start : σ} (holds : List ι → σ → Prop) (first : holds [] start)
    (keeps : ∀ {past state action next}, run step start past = some state →
      step state action = some next → holds past state → holds (past ++ [action]) next)
    {actions : List ι} (ran : run step start actions = some final) : holds actions final := by
  induction actions using List.reverseRecOn generalizing final with
  | nil =>
      cases ran
      exact first
  | append_singleton past action ih =>
      obtain ⟨before, earlier, taken⟩ := run_concat_eq_some.mp ran
      exact keeps earlier taken (ih earlier)

/-- What each step preserves, each run preserves. -/
theorem invariant (holds : σ → Prop)
    (keeps : ∀ {state action next}, step state action = some next → holds state → holds next)
    {actions : List ι} (ran : run step state actions = some final) (first : holds state) :
    holds final := by
  induction actions generalizing state with
  | nil =>
      cases ran
      exact first
  | cons action rest ih =>
      obtain ⟨next, taken, ran⟩ := run_cons_eq_some.mp ran
      exact ih ran (keeps taken first)

/-- What each step taken with care preserves, each careful run preserves. -/
theorem invariant_along {care : σ → ι → Prop} (holds : σ → Prop)
    (keeps : ∀ {state action next}, step state action = some next → care state action →
      holds state → holds next)
    {actions : List ι} (ran : run step state actions = some final)
    (careful : Along step care state actions) (first : holds state) : holds final := by
  induction actions generalizing state with
  | nil =>
      cases ran
      exact first
  | cons action rest ih =>
      obtain ⟨next, taken, ran⟩ := run_cons_eq_some.mp ran
      exact ih ran (careful.2 next taken) (keeps taken careful.1 first)

/-- What is kept by the steps taken with care and by no others is what is left of
careful runs. -/
theorem along_iff {care : σ → ι → Prop} (always holds : σ → Prop)
    (keeps : ∀ {state action next}, step state action = some next → always state → always next)
    (exact_ : ∀ {state action next}, step state action = some next → always state →
      (holds next ↔ holds state ∧ care state action))
    {actions : List ι} (ran : run step state actions = some final) (first : always state) :
    holds final ↔ holds state ∧ Along step care state actions := by
  induction actions generalizing state with
  | nil =>
      cases ran
      exact (and_iff_left trivial).symm
  | cons action rest ih =>
      obtain ⟨next, taken, ran⟩ := run_cons_eq_some.mp ran
      rw [ih ran (keeps taken first), exact_ taken first, along_cons taken, and_assoc]

/-- A run that lessens what is left with each step is no longer than what was left
at first. -/
theorem length_le_of_lessens (holds : σ → Prop) (left : σ → Nat)
    (keeps : ∀ {state action next}, step state action = some next → holds state → holds next)
    (lessens : ∀ {state action next}, step state action = some next → holds state →
      left next < left state)
    {actions : List ι} (ran : run step state actions = some final) (first : holds state) :
    actions.length + left final ≤ left state := by
  induction actions generalizing state with
  | nil =>
      cases ran
      exact Nat.le_of_eq (Nat.zero_add _)
  | cons action rest ih =>
      obtain ⟨next, taken, ran⟩ := run_cons_eq_some.mp ran
      have less := lessens taken first
      have rest_le := ih ran (keeps taken first)
      rw [List.length_cons]
      omega

/-- A system that can always go on, with less left to do, until it has come to its
end comes to its end. -/
theorem exists_run_of_lessens (holds ended : σ → Prop) (goes : ι → Prop) (left : σ → Nat)
    (goes_on : ∀ {state}, holds state → ¬ ended state → ∃ action next, goes action ∧
      step state action = some next ∧ holds next ∧ left next < left state)
    (first : holds state) :
    ∃ actions final, (∀ action ∈ actions, goes action) ∧ run step state actions = some final ∧
      ended final := by
  induction measure : left state using Nat.strong_induction_on generalizing state with
  | _ measured ih =>
      by_cases done : ended state
      · exact ⟨[], state, List.forall_mem_nil _, rfl, done⟩
      · obtain ⟨action, next, goes, taken, kept, less⟩ := goes_on first done
        obtain ⟨actions, final, going, ran, done⟩ := ih (left next) (measure ▸ less) kept rfl
        refine ⟨action :: actions, final, ?_, run_cons_eq_some.mpr ⟨next, taken, ran⟩, done⟩
        exact List.forall_mem_cons.mpr ⟨goes, going⟩

section Simulation

variable {step' : τ → κ → Option τ} {shows : σ → ι → Option ω} {shows' : τ → κ → Option ω}

theorem trace_cons {action : ι} {rest : List ι} {next : σ} (taken : step state action = some next) :
    trace step shows state (action :: rest) =
      (shows state action).toList ++ trace step shows next rest := by
  rw [trace, taken, Option.elim_some]

theorem trace_append {middle : σ} {first second : List ι}
    (left : run step state first = some middle) :
    trace step shows state (first ++ second) =
      trace step shows state first ++ trace step shows middle second := by
  induction first generalizing state with
  | nil =>
      cases left
      rfl
  | cons action first ih =>
      obtain ⟨next, taken, left⟩ := run_cons_eq_some.mp left
      rw [List.cons_append, trace_cons taken, trace_cons taken, ih left, List.append_assoc]

/-- A system follows another one if it can answer each of the other's steps with
a run that shows the same. -/
structure Follows (step : σ → ι → Option σ) (shows : σ → ι → Option ω) (step' : τ → κ → Option τ)
    (shows' : τ → κ → Option ω) (alike : σ → τ → Prop) : Prop where
  answers : ∀ {state action next state'}, step state action = some next → alike state state' →
    ∃ actions next', run step' state' actions = some next' ∧
      trace step' shows' state' actions = (shows state action).toList ∧ alike next next'

/-- The runs of a system that is followed. -/
theorem Follows.run {alike : σ → τ → Prop} (follows : Follows step shows step' shows' alike)
    {actions : List ι} {state' : τ} (ran : Transition.run step state actions = some final)
    (same : alike state state') :
    ∃ actions' final', Transition.run step' state' actions' = some final' ∧
      trace step' shows' state' actions' = trace step shows state actions ∧
      alike final final' := by
  induction actions generalizing state state' with
  | nil =>
      cases ran
      exact ⟨[], state', rfl, rfl, same⟩
  | cons action rest ih =>
      obtain ⟨next, taken, ran⟩ := run_cons_eq_some.mp ran
      obtain ⟨first, next', answered, shown, same⟩ := follows.answers taken same
      obtain ⟨second, final', followed, seen, same⟩ := ih ran same
      refine ⟨first ++ second, final', run_append answered followed, ?_, same⟩
      rw [trace_append answered, trace_cons taken, shown, seen]

/-- A system that is followed shows nothing else. -/
theorem Follows.traces_subset {alike : σ → τ → Prop}
    (follows : Follows step shows step' shows' alike) {state' : τ} (same : alike state state') :
    traces step shows state ⊆ traces step' shows' state' := by
  rintro seen ⟨actions, final, ran, rfl⟩
  obtain ⟨actions', final', followed, shown, -⟩ := follows.run ran same
  exact ⟨actions', final', followed, shown⟩

end Simulation

end Transition
